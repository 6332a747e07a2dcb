import AccessLedger.Report.Heading
import AccessLedger.Usage.View

/-!
Reports to be read on a terminal, line by line.
-/

namespace AccessLedger

def Text.padRight (width : Nat) (s : String) : String :=
  s ++ String.ofList (List.replicate (width - s.length) ' ')

def Text.ofLines (lines : List String) : String :=
  String.join (lines.map (· ++ "\n"))

namespace Entry

/-- An app with one row takes one line; else the rows follow below the app. -/
def lines : Entry → List String
  | single row => [Text.padRight 32 row.title ++ " " ++ row.summary]
  | grouped _ title _ _ rows =>
    (title ++ " (" ++ toString rows.length ++ " permissions)") ::
      rows.map fun row => "  " ++ row.summary

end Entry

namespace Heading

def lines (h : Heading) : List String := [
  "Permission usage (" ++ h.group ++ " / " ++ h.time ++ ")",
  String.ofList (List.replicate 50 '─')]

end Heading

namespace View

def entryLines (v : View) : List String :=
  if v.tree.isEmpty then ["No permission usage found."] else v.tree.flatMap Entry.lines

def hintLines (v : View) (h : Heading) : List String :=
  if v.hasSystemApps && !h.showSystem then
    ["", "System apps hidden. Pass --show-system to include them."]
  else []

def lines (v : View) (h : Heading) : List String :=
  h.lines ++ v.entryLines ++ v.hintLines h

end View

namespace FilterOptions

def numbered (position : Nat) (what : String) : String :=
  "  [" ++ toString position ++ "] " ++ what

def groupLines (o : FilterOptions) : List String :=
  o.groups.zipIdx.map fun (option, position) => numbered position option.label

def timeLines (o : FilterOptions) : List String :=
  o.times.zipIdx.map fun (option, position) =>
    numbered position (option.label ++ " (" ++ option.window.notate ++ ")")

def lines (o : FilterOptions) : List String :=
  ["Permission filters:"] ++ o.groupLines ++ ["Time filters:"] ++ o.timeLines

end FilterOptions
end AccessLedger
