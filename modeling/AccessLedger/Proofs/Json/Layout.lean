import AccessLedger.Json.Decoder
import AccessLedger.Json.Document

/-!
Documents with blanks put in. The compact form and the one with a line per item are two ways of
putting in blanks after brackets, commas and colons; what is read back does not depend on them.
-/

namespace AccessLedger.Json

/-- Characters between the parts of a text that do not count. -/
def AreBlanks (bs : List Char) : Prop :=
  ∀ c ∈ bs, Decoder.isBlank (some c) = true

theorem areBlanks_nil : AreBlanks [] :=
  fun _ h => nomatch h

/--
The blanks that go before an item and before a closing bracket, by level, and those behind a colon.
-/
structure Layout where
  gap : Nat → List Char
  space : List Char
  areBlanks_gap : ∀ level, AreBlanks (gap level)
  areBlanks_space : AreBlanks space

namespace Layout

def compact : Layout where
  gap _ := []
  space := []
  areBlanks_gap _ := areBlanks_nil
  areBlanks_space := areBlanks_nil

def lines : Layout where
  gap := lineBreak
  space := [' ']
  areBlanks_gap level c hc := by
    rw [lineBreak, List.mem_cons, List.mem_replicate] at hc
    rcases hc with rfl | ⟨_, rfl⟩ <;> rfl
  areBlanks_space c hc := by
    rw [List.mem_singleton] at hc
    rw [hc]
    rfl

mutual

def write (l : Layout) (level : Nat) : Document → List Char
  | .null => ['n', 'u', 'l', 'l']
  | .bool b => writeBool b
  | .integer n => writeInteger n
  | .text s => writeText s
  | .list [] => ['[', ']']
  | .list (d :: ds) =>
    '[' :: (l.gap (level + 1) ++
      (l.write (level + 1) d ++ (l.writeItems (level + 1) ds ++ l.gap level))) ++ [']']
  | .object [] => ['{', '}']
  | .object ((k, d) :: fs) =>
    '{' :: (l.gap (level + 1) ++ (writeText k ++ ':' :: (l.space ++ (l.write (level + 1) d ++
      (l.writeFields (level + 1) fs ++ l.gap level))))) ++ ['}']

def writeItems (l : Layout) (level : Nat) : List Document → List Char
  | [] => []
  | d :: ds => ',' :: (l.gap level ++ (l.write level d ++ l.writeItems level ds))

def writeFields (l : Layout) (level : Nat) : List (String × Document) → List Char
  | [] => []
  | (k, d) :: fs =>
    ',' :: (l.gap level ++
      (writeText k ++ ':' :: (l.space ++ (l.write level d ++ l.writeFields level fs))))

end

def writeField (l : Layout) (level : Nat) (field : String × Document) : List Char :=
  writeText field.1 ++ ':' :: (l.space ++ l.write level field.2)

mutual

theorem write_compact (level : Nat) : ∀ d : Document, compact.write level d = d.writeCompact
  | .null | .bool _ | .integer _ | .text _ | .list [] | .object [] => by
      simp [write, Document.writeCompact]
  | .list (d :: ds) => by
      rw [write, write_compact (level + 1) d, writeItems_compact (level + 1) ds,
        Document.writeCompact]
      simp [compact]
  | .object ((k, d) :: fs) => by
      rw [write, write_compact (level + 1) d, writeFields_compact (level + 1) fs,
        Document.writeCompact]
      simp [compact]

theorem writeItems_compact (level : Nat) :
    ∀ ds : List Document, compact.writeItems level ds = AccessLedger.Json.writeItems ds
  | [] => by rw [writeItems, AccessLedger.Json.writeItems]
  | d :: ds => by
      rw [writeItems, write_compact level d, writeItems_compact level ds,
        AccessLedger.Json.writeItems]
      simp [compact]

theorem writeFields_compact (level : Nat) :
    ∀ fs : List (String × Document), compact.writeFields level fs = AccessLedger.Json.writeFields fs
  | [] => by rw [writeFields, AccessLedger.Json.writeFields]
  | (k, d) :: fs => by
      rw [writeFields, write_compact level d, writeFields_compact level fs,
        AccessLedger.Json.writeFields]
      simp [compact]

end

mutual

theorem write_lines (level : Nat) : ∀ d : Document, lines.write level d = d.writeLines level
  | .null | .bool _ | .integer _ | .text _ | .list [] | .object [] => by
      simp [write, Document.writeLines]
  | .list (d :: ds) => by
      rw [write, write_lines (level + 1) d, writeItems_lines (level + 1) ds, Document.writeLines]
      simp [lines]
  | .object ((k, d) :: fs) => by
      rw [write, write_lines (level + 1) d, writeFields_lines (level + 1) fs, Document.writeLines]
      simp [lines]

theorem writeItems_lines (level : Nat) :
    ∀ ds : List Document, lines.writeItems level ds = writeItemLines level ds
  | [] => by rw [writeItems, writeItemLines]
  | d :: ds => by
      rw [writeItems, write_lines level d, writeItems_lines level ds, writeItemLines]
      simp [lines]

theorem writeFields_lines (level : Nat) :
    ∀ fs : List (String × Document), lines.writeFields level fs = writeFieldLines level fs
  | [] => by rw [writeFields, writeFieldLines]
  | (k, d) :: fs => by
      rw [writeFields, write_lines level d, writeFields_lines level fs, writeFieldLines]
      simp [lines]

end

end Layout
end AccessLedger.Json
