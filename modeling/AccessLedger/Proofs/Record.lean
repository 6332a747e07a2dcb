/-!
Records that are filled in part by part. A part that is filled has its new value, whatever the
order, and all others keep theirs; a record of which all parts are as in another one is that record.
-/

namespace AccessLedger

/-- A part of a record, under the name that it is given by. -/
structure Part (α : Type) where
  name : String
  Kind : Type
  get : α → Kind

namespace Part

variable {α : Type} {parts : List (Part α)} {x a b : α} {name : String} {change : α → α}

/-- A change that gives the part of one name what it is in `x` and leaves the others. -/
def Fills (parts : List (Part α)) (x : α) (name : String) (change : α → α) : Prop :=
  ∀ a, ∀ p ∈ parts, p.get (change a) = if p.name = name then p.get x else p.get a

/-- A record made from `a` by giving the parts of some names what they are in `x`. -/
def Filled (parts : List (Part α)) (x a : α) (names : List String) (b : α) : Prop :=
  ∀ p ∈ parts, p.get b = if p.name ∈ names then p.get x else p.get a

/-- Nothing else belongs to a record. -/
def Determine (parts : List (Part α)) : Prop :=
  ∀ a b, (∀ p ∈ parts, p.get a = p.get b) → a = b

theorem Filled.refl (parts : List (Part α)) (x a : α) : Filled parts x a [] a :=
  fun _ _ => by simp

theorem Filled.cons {names : List String} (hfills : Fills parts x name change)
    (h : Filled parts x (change a) names b) : Filled parts x a (name :: names) b := by
  intro p hp
  rw [h p hp, hfills a p hp]
  by_cases hname : p.name = name
  · simp [hname]
  · simp [hname]

/-- What was left out was already there. -/
theorem Filled.eq {names : List String} (h : Filled parts x a names b) (hparts : Determine parts)
    (hleft : ∀ p ∈ parts, p.name ∉ names → p.get a = p.get x) : b = x := by
  apply hparts
  intro p hp
  rw [h p hp]
  split
  · rfl
  · next hname => exact hleft p hp hname

end Part
end AccessLedger
