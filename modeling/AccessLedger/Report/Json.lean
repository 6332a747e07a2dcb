import AccessLedger.Filter.Json
import AccessLedger.Report.Heading

/-!
Reports to be read by programs, as JSON.
-/

namespace AccessLedger
open Json

namespace Row

def fields (r : Row) : List (String × Document) := [
  ("key", .text r.key),
  ("app_key", .text r.appKey),
  ("title", .text r.title)] ++
  (r.appIcon.map fun icon => ("app_icon", Document.text icon)).toList ++ [
  ("group_name", .text r.groupName),
  ("group_label", .text r.groupLabel),
  ("group_icon", .text r.groupIcon),
  ("last_access_ms", .integer r.time),
  ("summary", .text r.summary)]

end Row

namespace Entry

def document : Entry → Document
  | single row => .object (("kind", .text "single") :: row.fields)
  | grouped appKey title icon groupIcons rows =>
    .object [
      ("kind", .text "grouped"),
      ("app_key", .text appKey),
      ("title", .text title),
      ("icon", .text icon),
      ("group_icons", .list (groupIcons.map .text)),
      ("children", .list (rows.map fun row => .object row.fields))]

end Entry

namespace Heading

def document (h : Heading) : Document :=
  .object [
    ("group", .text h.group),
    ("time", .text h.time),
    ("show_system", .bool h.showSystem)]

end Heading

namespace View

def document (v : View) (h : Heading) : Document :=
  .object [
    ("version", .text "0.1"),
    ("filters", h.document),
    ("has_system_apps", .bool v.hasSystemApps),
    ("entries", .list (v.tree.map Entry.document))]

end View

namespace GroupOption

def document (o : GroupOption) : Document :=
  .object (("label", .text o.label) ::
    ((o.groupName?.map fun name => ("group_name", Document.text name)).toList ++
      (o.groupLabel?.map fun label => ("group_label", Document.text label)).toList))

end GroupOption

namespace TimeOption

def document (o : TimeOption) : Document :=
  .object [("label", .text o.label), ("window", o.window.document)]

end TimeOption

namespace FilterOptions

def document (o : FilterOptions) : Document :=
  .object [
    ("group_options", .list (o.groups.map GroupOption.document)),
    ("time_options", .list (o.times.map TimeOption.document))]

end FilterOptions
end AccessLedger
