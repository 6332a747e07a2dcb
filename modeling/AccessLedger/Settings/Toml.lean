import AccessLedger.Settings
import AccessLedger.Toml.Record
import AccessLedger.Toml.Writer

/-!
Settings as TOML: a table of filters and a table of texts to display. The names of the records
appear only in complaints.
-/

namespace AccessLedger.Settings
open Toml

def filters : Shape Rules where
  name := "FilterSettings"
  fields := [
    .of "platform_namespace" Value.toText fun x r => { r with platform := x },
    .of "excluded_labels" Value.toTexts fun x r => { r with excludedLabels := x }]

def display : Shape (Labels × String) where
  name := "DisplaySettings"
  fields := [
    .of "any_group_label" Value.toText fun x d => ({ d.1 with anyGroup := x }, d.2),
    .of "any_time_label" Value.toText fun x d => ({ d.1 with anyTime := x }, d.2),
    .of "last_7_days_label" Value.toText fun x d => ({ d.1 with last7Days := x }, d.2),
    .of "last_24_hours_label" Value.toText fun x d => ({ d.1 with last24Hours := x }, d.2),
    .of "last_hour_label" Value.toText fun x d => ({ d.1 with lastHour := x }, d.2),
    .of "last_15_minutes_label" Value.toText fun x d => ({ d.1 with last15Minutes := x }, d.2),
    .of "summary_template" Value.toText fun x d => ({ d.1 with summaryTemplate := x }, d.2),
    .of "locale" Value.toText fun x d => (d.1, x)]

def shape : Shape Settings where
  name := "Settings"
  fields := [
    .of "filters" (filters.decode {}) fun x s => { s with rules := x },
    .of "display" (display.decode ({}, ({} : Settings).locale)) fun x s =>
      { s with labels := x.1, locale := x.2 }]

def readAsWritten (text : String) : Except Fault Settings :=
  shape.read {} text

def read (text : String) : Except Fault Settings :=
  (readAsWritten text).map repaired

def filterEntries (s : Settings) : List (String × Setting) := [
  ("platform_namespace", .text s.rules.platform),
  ("excluded_labels", .texts s.rules.excludedLabels)]

def displayEntries (s : Settings) : List (String × Setting) := [
  ("any_group_label", .text s.labels.anyGroup),
  ("any_time_label", .text s.labels.anyTime),
  ("last_7_days_label", .text s.labels.last7Days),
  ("last_24_hours_label", .text s.labels.last24Hours),
  ("last_hour_label", .text s.labels.lastHour),
  ("last_15_minutes_label", .text s.labels.last15Minutes),
  ("summary_template", .text s.labels.summaryTemplate),
  ("locale", .text s.locale)]

def write (s : Settings) : String :=
  String.ofList (writeTable "filters" s.filterEntries ++ ['\n'] ++
    writeTable "display" s.displayEntries)

end AccessLedger.Settings
