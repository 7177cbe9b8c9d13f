import ImportFence.Check
import ImportFence.Json
import ImportFence.Report

/-!
# Results as JSON

The fields of findings in the order in which they are written. The reason of a suppression is left
out when there is none.
-/

namespace ImportFence

def Symbol.toJson : Symbol → Json
  | .name n => .object [("Name", .text n)]
  | .wildcard => .text "Wildcard"

def Edge.toJson (e : Edge) : Json :=
  .object ([
    ("from_file", .text e.file.text),
    ("line", .number e.line),
    ("column", .number e.column),
    ("from_package", .number e.fromPackage),
    ("to_package", .number e.toPackage),
    ("module_path", .text e.module),
    ("imported_symbol", e.symbol.toJson),
    ("suppressed", .boolean e.suppressed)] ++ Json.optionalMember "ignore_reason" e.reason)

def Location.toJson (l : Location) : Json :=
  .object [("file", .text l.file.text), ("line", .number l.line), ("column", .number l.column)]

def ViolationKind.toJson : ViolationKind → Json
  | .undeclaredDependency => .text "UndeclaredDependency"
  | .strictInterface => .text "StrictInterfaceViolation"

def Violation.jsonMembers (v : Violation) : List (String × Json) :=
  [("kind", v.kind.toJson),
    ("location", v.location.toJson),
    ("message", .text v.message),
    ("edge", v.edge.toJson)]

def Warning.toJson (w : Warning) : Json :=
  .object [("file", .text w.file.text), ("message", .text w.message)]

def CheckResult.toJson (r : CheckResult) : Json :=
  .object [
    ("violations", .array (r.violations.map fun v => .object v.jsonMembers)),
    ("warnings", .array (r.warnings.map Warning.toJson)),
    ("files_checked", .number r.filesChecked),
    ("no_first_party_imports", .boolean r.noFirstPartyImports)]

def ReportEntry.toJson (e : ReportEntry) : Json :=
  .object ([
    ("location", e.location.toJson),
    ("import", .text e.imported),
    ("other_module", .text e.otherModule),
    ("suppressed", .boolean e.suppressed)] ++ Json.optionalMember "ignore_reason" e.reason)

/-- A section of a report, or null. -/
def Report.sectionToJson : Option (List ReportEntry) → Json
  | some entries => .array (entries.map ReportEntry.toJson)
  | none => .null

def Report.toJson (r : Report) : Json :=
  .object [
    ("package", .text r.package),
    ("dependencies", sectionToJson r.dependencies),
    ("usages", sectionToJson r.usages),
    ("warnings", .array (r.warnings.map Warning.toJson))]

end ImportFence
