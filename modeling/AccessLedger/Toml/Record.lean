import AccessLedger.Toml.Source

/-!
Records in TOML. A record is a table whose fields may come in any order and among others, or a list
of its fields in their own order; every field has a default.
-/

namespace AccessLedger.Toml

abbrev Decoded := Except Mismatch

namespace Value

def unexpected {α : Type} (expected : String) (v : Value) : Decoded α :=
  .error (.invalidType v.found expected)

def toText : Value → Decoded String
  | .text s => .ok s
  | v => v.unexpected "a string"

def toBool : Value → Decoded Bool
  | .boolean b => .ok b
  | v => v.unexpected "a boolean"

def toPosition : Value → Decoded Nat
  | .integer n => if 0 ≤ n then .ok n.toNat else .error (.invalidValue n "usize")
  | v => v.unexpected "usize"

def toTexts : Value → Decoded (List String)
  | .list vs => vs.mapM toText
  | v => v.unexpected "a sequence"

end Value

/-- A field of a record: its name, and the change that its value makes. -/
structure Field (α : Type) where
  name : String
  decode : Value → Decoded (α → α)

def Field.of {α β : Type} (name : String) (decode : Value → Decoded β) (set : β → α → α) :
    Field α :=
  ⟨name, fun v => set <$> decode v⟩

structure Shape (α : Type) where
  name : String
  fields : List (Field α)

namespace Shape
variable {α : Type}

/-- Fields by name; other names are left out of account. -/
def ofFields (s : Shape α) (a : α) : List (String × Value) → Decoded α
  | [] => .ok a
  | (name, v) :: rest =>
    match s.fields.find? (·.name == name) with
    | none => s.ofFields a rest
    | some field => do
      let change ← field.decode v
      s.ofFields (change a) rest

/-- Fields by position; what comes after the last field is left out of account. -/
def ofItems (a : α) : List (Field α) → List Value → Decoded α
  | field :: fields, v :: vs => do
    let change ← field.decode v
    ofItems (change a) fields vs
  | _, _ => .ok a

/-- A record whose fields have the values in `usual` unless they are given. -/
def decode (s : Shape α) (usual : α) : Value → Decoded α
  | .table fields => s.ofFields usual fields
  | .list vs => ofItems usual s.fields vs
  | .moment _ => .ok usual
  | v => v.unexpected ("struct " ++ s.name)

def read (s : Shape α) (usual : α) (text : String) : Except Fault α :=
  match read? text with
  | none => .error .malformed
  | some fields => (s.ofFields usual fields).mapError .mismatch

end Shape
end AccessLedger.Toml
