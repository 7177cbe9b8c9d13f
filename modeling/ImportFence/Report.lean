import ImportFence.Check

/-!
# Reports on a package

The imports that leave a package and those that enter it, as a readable text or as plain lists of
modules.
-/

namespace ImportFence

/-- Why there is no report. -/
inductive ReportError where
  | nothingToReport
  | unknownPackage (path : Path)
  | check (cause : CheckError)
  deriving DecidableEq, Inhabited

namespace ReportError

def message : ReportError → String
  | .nothingToReport => "nothing to report: select dependencies, usages or both"
  | .unknownPackage path => "'" ++ path.text ++ "' is not a package root"
  | .check cause => cause.message

end ReportError

/-- The sections of a report. -/
structure Sections where
  dependencies : Bool
  usages : Bool
  deriving DecidableEq, Inhabited

/-- One import of a report. -/
structure ReportEntry where
  location : Location
  imported : String
  otherModule : String
  suppressed : Bool
  reason : Option String
  deriving DecidableEq, Inhabited

/-- A report on a package; a section that was not asked for is absent. -/
structure Report where
  package : String
  dependencies : Option (List ReportEntry)
  usages : Option (List ReportEntry)
  warnings : List Warning
  deriving DecidableEq, Inhabited

namespace ReportEntry

def ofEdge (e : Edge) (other : Package) : ReportEntry where
  location := e.location
  imported := e.qualified
  otherModule := other.module
  suppressed := e.suppressed
  reason := e.reason

def mark (e : ReportEntry) : String :=
  match e.suppressed, e.reason with
  | true, some reason => " (ignored: " ++ reason ++ ")"
  | true, none => " (ignored)"
  | false, _ => ""

def text (e : ReportEntry) : String :=
  e.location.text ++ ": Import '" ++ e.imported ++ "'" ++ e.mark

end ReportEntry

namespace Report

/-- The entries of edges, each with the package at its other end. -/
def entries (tree : PackageTree) (other : Edge → PackageId) (edges : List Edge) :
    Except ReportError (List ReportEntry) :=
  edges.mapM fun e => return ReportEntry.ofEdge e (← (tree.package (other e)).mapError .check)

/-- A section, if it is asked for. -/
def sectionIf {α : Type} (asked : Bool) (body : Except ReportError α) :
    Except ReportError (Option α) :=
  if asked then body.map some else .ok none

def build (graph : Graph) (tree : PackageTree) (root : Path) (sections : Sections) :
    Except ReportError Report := do
  if !sections.dependencies && !sections.usages then throw .nothingToReport
  let some package := tree.findByRoot? root | throw (.unknownPackage root)
  let dependencies ← sectionIf sections.dependencies
    (entries tree (·.toPackage) (graph.dependenciesOf package.id))
  let usages ← sectionIf sections.usages
    (entries tree (·.fromPackage) (graph.usagesOf package.id))
  return { package := package.name, dependencies, usages, warnings := graph.warnings }

def rule : String := "-------------------------------"

/-- The lines of a section, if it was asked for. -/
def sectionLines (package title none : String) : Option (List ReportEntry) → List String
  | .none => []
  | some entries =>
    ["[ " ++ title ++ " of '" ++ package ++ "' ]"] ++
      (if entries.isEmpty then [none] else entries.map (·.text)) ++ [rule]

def text (r : Report) : String :=
  let lines :=
    ["[ Dependency Report for '" ++ r.package ++ "' ]", rule] ++
      sectionLines r.package "Dependencies" "No dependencies found." r.dependencies ++
      sectionLines r.package "Usages" "No usages found." r.usages ++
      (if r.warnings.isEmpty then [] else "[ Warnings ]" :: r.warnings.map (·.text))
  Text.join "" (lines.map (· ++ "\n"))

/-- The header and the modules of a section that has entries. -/
def rawLines (header : String) : Option (List ReportEntry) → List String
  | none => []
  | some [] => []
  | some entries => header :: Sorted.ofList compare (entries.map (·.otherModule))

/-- The report as plain lists of modules. -/
def raw (r : Report) : String :=
  Text.join "\n" (rawLines "# Module Dependencies" r.dependencies ++
    rawLines "# Module Usages" r.usages)

end Report

end ImportFence
