import AccessLedger.Text.Quoted

/-!
What the ledger remarks on while it works. A remark changes no result.
-/

namespace AccessLedger

inductive Diagnostic where
  | unknownApp (appKey group : String)
  | negativeTime (appKey group : String) (time : Int)
  | unknownTarget (target : String)
  | passFinished (apps records skipped : Nat) (hasSystemApps : Bool)
  | treeBuilt (entries : Nat)
  | noGroupsYet
  | filterGone (label : String)
  | noSuchGroupOption (position : Nat)
deriving DecidableEq, Inhabited, Repr

/-- One line: severity, remark, then the particulars as `name=value`. -/
def Diagnostic.line : Diagnostic → String
  | unknownApp appKey group =>
    "WARN grant references unknown application, skipping app_key=" ++ appKey ++ " group=" ++ group
  | negativeTime appKey group time =>
    "WARN negative access time, skipping record app_key=" ++ appKey ++ " group=" ++ group ++
      " access_time_ms=" ++ toString time
  | unknownTarget target =>
    "WARN invalid platform permission target, ignoring target_name=" ++ Text.quoted target
  | passFinished apps records skipped hasSystemApps =>
    "DEBUG aggregated permission usage apps=" ++ toString apps ++ " records=" ++ toString records ++
      " skipped=" ++ toString skipped ++ " has_system_apps=" ++ toString hasSystemApps
  | treeBuilt entries => "DEBUG built permission usage tree entries=" ++ toString entries
  | noGroupsYet => "DEBUG snapshot has no permission groups yet, keeping filter options"
  | filterGone label =>
    "DEBUG selected permission filter no longer available, showing all previous=" ++ label
  | noSuchGroupOption position =>
    "WARN group filter index out of range, showing all index=" ++ toString position

end AccessLedger
