import AccessLedger.Filter.Selection
import AccessLedger.Json.Document
import AccessLedger.Json.Record
import AccessLedger.Session

/-!
Windows, filters in force and saved choices as JSON.
-/

namespace AccessLedger
open Json

namespace Window

/-- The windows without a number of their own, by their names in JSON. -/
def jsonNames : List (String × Window) := [
  ("any_time", anyTime),
  ("last7_days", last7Days),
  ("last24_hours", last24Hours),
  ("last_hour", lastHour),
  ("last15_minutes", last15Minutes)]

def jsonName : Window → String
  | anyTime => "any_time"
  | last7Days => "last7_days"
  | last24Hours => "last24_hours"
  | lastHour => "last_hour"
  | last15Minutes => "last15_minutes"
  | custom _ => "custom"

def document (w : Window) : Document :=
  match w with
  | custom seconds => .object [("custom", .nat seconds)]
  | _ => .text w.jsonName

/-- Reads the name of a window; nothing stands for the one that has a number. -/
private def variant : Decoder (Option Window) := Decoder.placed do
  let name ← Decoder.string "variant identifier"
  match jsonNames.lookup name with
  | some w => pure (some w)
  | none =>
    if name == "custom" then pure none
    else Decoder.fail (.mismatch (.unknownVariant name (jsonNames.map (·.1) ++ ["custom"])))

/-- A name, or an object with a name and the number that belongs to it; other names go with null. -/
def decoder : Decoder Window := do
  Decoder.skipBlanks
  match ← get with
  | [] => Decoder.failNext .endOfValue
  | some '{' :: rest =>
    set rest
    Decoder.skipBlanks
    match ← get with
    | some '"' :: _ => pure ()
    | some '}' :: _ => Decoder.failNext .noValue
    | [] => Decoder.failNext .endOfObject
    | _ => Decoder.failNext .keyNotString
    let name ← variant
    Decoder.colon
    let w ← match name with
      | some w =>
        Decoder.unit
        pure w
      | none => custom <$> Decoder.nat64
    Decoder.skipBlanks
    match ← get with
    | [] => Decoder.failHere .endOfObject
    | some '}' :: rest =>
      set rest
      pure w
    | _ => Decoder.failHere .noValue
  | some '"' :: _ =>
    match ← variant with
    | some w => pure w
    | none => Decoder.fail (.mismatch (.invalidType .unitVariant "newtype variant"))
  | _ => Decoder.failNext .noValue

end Window

def Selection.shape : Shape Selection where
  name := "FilterSelection"
  initial := {}
  fields := [
    .optional "group_label" (Decoder.option Decoder.string) fun x s => { s with groupLabel := x },
    .optional "window" Window.decoder fun x s => { s with window := x },
    .optional "show_system" Decoder.bool fun x s => { s with showSystem := x }]

def Selection.document (s : Selection) : Document :=
  .object [
    ("group_label", .ofOption .text s.groupLabel),
    ("window", s.window.document),
    ("show_system", .bool s.showSystem)]

def SavedSelection.shape : Shape SavedSelection where
  name := "SavedSelection"
  initial := {}
  fields := [
    .optional "show_system" Decoder.bool fun x s => { s with showSystem := x },
    .optional "group_index" (Decoder.option (Decoder.nat64 "usize")) fun x s =>
      { s with groupPosition := x },
    .optional "group_label" (Decoder.option Decoder.string) fun x s => { s with groupLabel := x },
    .optional "time_index" (Decoder.option (Decoder.nat64 "usize")) fun x s =>
      { s with timePosition := x }]

def SavedSelection.document (s : SavedSelection) : Document :=
  .object [
    ("show_system", .bool s.showSystem),
    ("group_index", .ofOption .nat s.groupPosition),
    ("group_label", .ofOption .text s.groupLabel),
    ("time_index", .ofOption .nat s.timePosition)]

end AccessLedger
