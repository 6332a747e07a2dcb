import AccessLedger.Collation.Locale
import AccessLedger.Usage.View

/-!
What a user can set: which groups count, how things are called, and in which locale labels are
ordered.
-/

namespace AccessLedger

structure Settings where
  rules : Rules := {}
  labels : Labels := {}
  /-- A language tag; `und` stands for the root order. -/
  locale : String := "und"
deriving DecidableEq, Inhabited, Repr

namespace Settings

def orElse (s usual : String) : String :=
  if Text.isBlankText s then usual else s

/-- The settings with the default in each text that is blank. Labels to be left out may be blank. -/
def repaired (s : Settings) : Settings :=
  let usual : Settings := {}
  { rules := { s.rules with platform := orElse s.rules.platform usual.rules.platform }
    labels := {
      anyGroup := orElse s.labels.anyGroup usual.labels.anyGroup
      anyTime := orElse s.labels.anyTime usual.labels.anyTime
      last7Days := orElse s.labels.last7Days usual.labels.last7Days
      last24Hours := orElse s.labels.last24Hours usual.labels.last24Hours
      lastHour := orElse s.labels.lastHour usual.labels.lastHour
      last15Minutes := orElse s.labels.last15Minutes usual.labels.last15Minutes
      summaryTemplate := orElse s.labels.summaryTemplate usual.labels.summaryTemplate }
    locale := orElse s.locale usual.locale }

def requiredTexts (s : Settings) : List String := [
  s.rules.platform,
  s.labels.anyGroup,
  s.labels.anyTime,
  s.labels.last7Days,
  s.labels.last24Hours,
  s.labels.lastHour,
  s.labels.last15Minutes,
  s.labels.summaryTemplate,
  s.locale]

def needsRepair (s : Settings) : Bool :=
  s.requiredTexts.any Text.isBlankText

def localeMessage (locale : String) : String :=
  "Invalid [display] locale '" ++ locale ++ "'"

def outlook (s : Settings) (languages : Collation.Languages) :
    Except Collation.LocaleFault Outlook :=
  (Collation.ofLocale s.locale languages).map fun collation => ⟨s.rules, s.labels, collation⟩

end Settings
end AccessLedger
