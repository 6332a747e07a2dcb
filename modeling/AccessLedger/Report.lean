import AccessLedger.Report.Json
import AccessLedger.Report.Text

/-!
Reports on views and on the filters on offer, in a form for people and one for programs.
-/

namespace AccessLedger

inductive Format where
  | text
  | json
deriving DecidableEq, Inhabited, Repr

namespace Format

def all : List Format := [text, json]

def name : Format → String
  | text => "text"
  | json => "json"

def ofName? (s : String) : Option Format :=
  all.find? (·.name == s)

end Format

def View.report (v : View) (h : Heading) : Format → String
  | .text => Text.ofLines (v.lines h)
  | .json => Text.ofLines [(v.document h).pretty]

def FilterOptions.report (o : FilterOptions) : Format → String
  | .text => Text.ofLines o.lines
  | .json => Text.ofLines [o.document.pretty]

end AccessLedger
