/-!
Replacing every occurrence of a piece of text. Occurrences are found from the left and do not
overlap, and text that was put in is not searched again.
-/

namespace AccessLedger.Text

def substituteChars (pattern replacement : List Char) (text : List Char) : List Char :=
  match text with
  | [] => []
  | c :: rest =>
    if pattern.isPrefixOf (c :: rest) then
      replacement ++ substituteChars pattern replacement (rest.drop (pattern.length - 1))
    else
      c :: substituteChars pattern replacement rest
termination_by text.length
decreasing_by all_goals simp_wf; try omega

/-- `pattern` is not empty. -/
def substitute (pattern replacement text : String) : String :=
  String.ofList (substituteChars pattern.toList replacement.toList text.toList)

end AccessLedger.Text
