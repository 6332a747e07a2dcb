import AccessLedger.Json.Document
import AccessLedger.Json.Record
import AccessLedger.Snapshot.Basic

/-!
Snapshots as JSON. Names, labels, keys and times are required; everything else has a default. The
names of the records appear only in complaints.
-/

namespace AccessLedger
open Json

def Access.shape : Shape Access where
  name := "UsageRecord"
  initial := ⟨"", "", "", 0⟩
  fields := [
    .mandatory "package_name" Decoder.string fun x a => { a with package := x },
    .mandatory "group_name" Decoder.string fun x a => { a with groupName := x },
    .mandatory "group_label" Decoder.string fun x a => { a with groupLabel := x },
    .mandatory "access_time_ms" Decoder.int64 fun x a => { a with time := x }]

def Grant.shape : Shape Grant where
  name := "GroupGrant"
  initial := { appKey := "" }
  fields := [
    .mandatory "app_key" Decoder.string fun x g => { g with appKey := x },
    .optional "shown" Decoder.bool fun x g => { g with shown := x },
    .optional "usages" (Decoder.list Access.shape.decoder) fun x g => { g with accesses := x }]

def PermissionGroup.shape : Shape PermissionGroup where
  name := "CapabilityGroup"
  initial := { name := "", label := "", declaredBy := "" }
  fields := [
    .mandatory "name" Decoder.string fun x g => { g with name := x },
    .mandatory "label" Decoder.string fun x g => { g with label := x },
    .mandatory "declaring_namespace" Decoder.string fun x g => { g with declaredBy := x },
    .optional "icon" Decoder.string fun x g => { g with icon := x },
    .optional "permissions" (Decoder.list Decoder.string) fun x g => { g with permissions := x },
    .optional "grants" (Decoder.list Grant.shape.decoder) fun x g => { g with grants := x }]

def App.shape : Shape App where
  name := "Application"
  initial := { key := "", label := "" }
  fields := [
    .mandatory "key" Decoder.string fun x a => { a with key := x },
    .mandatory "label" Decoder.string fun x a => { a with label := x },
    .optional "icon" Decoder.string fun x a => { a with icon := x },
    .optional "non_system_policy" Decoder.bool fun x a => { a with userFacing := x }]

def Snapshot.shape : Shape Snapshot where
  name := "Snapshot"
  initial := {}
  fields := [
    .optional "groups" (Decoder.list PermissionGroup.shape.decoder) fun x s =>
      { s with groups := x },
    .optional "apps" (Decoder.list App.shape.decoder) fun x s => { s with apps := x },
    .optional "launcher_packages" (Decoder.list Decoder.string) fun x s =>
      { s with launchers := .ofList x }]

def Access.document (a : Access) : Document :=
  .object [
    ("package_name", .text a.package),
    ("group_name", .text a.groupName),
    ("group_label", .text a.groupLabel),
    ("access_time_ms", .integer a.time)]

def Grant.document (g : Grant) : Document :=
  .object [
    ("app_key", .text g.appKey),
    ("shown", .bool g.shown),
    ("usages", .list (g.accesses.map Access.document))]

def PermissionGroup.document (g : PermissionGroup) : Document :=
  .object [
    ("name", .text g.name),
    ("label", .text g.label),
    ("declaring_namespace", .text g.declaredBy),
    ("icon", .text g.icon),
    ("permissions", .list (g.permissions.map .text)),
    ("grants", .list (g.grants.map Grant.document))]

def App.document (a : App) : Document :=
  .object [
    ("key", .text a.key),
    ("label", .text a.label),
    ("icon", .text a.icon),
    ("non_system_policy", .bool a.userFacing)]

def Snapshot.document (s : Snapshot) : Document :=
  .object [
    ("groups", .list (s.groups.map PermissionGroup.document)),
    ("apps", .list (s.apps.map App.document)),
    ("launcher_packages", .list (s.launchers.members.map .text))]

namespace Snapshot

def ofJson (text : RawText) : Except Fault Snapshot :=
  shape.decoder.runWhole text

def unreadable : String :=
  "failed to parse snapshot"

end Snapshot
end AccessLedger
