import ImportFence.Graph

/-!
# Checking imports

An import across packages is a violation if no tag of the importing package may depend on a tag of
the imported one, and, independently, if it goes into a strict package past its public interface.
-/

namespace ImportFence

/-- Why a graph cannot be checked. -/
inductive CheckError where
  | unknownPackage (id : PackageId)
  deriving DecidableEq, Inhabited

namespace CheckError

def message : CheckError → String
  | .unknownPackage id => "internal error: edge references unknown package #" ++ toString id

end CheckError

/-- For each tag with a constraint, the tags it may depend on. -/
structure ConstraintSet where
  allowed : List (TagId × TagSet)
  deriving DecidableEq, Inhabited

namespace ConstraintSet

def empty : ConstraintSet := ⟨[]⟩

def of (s : ConstraintSet) (tag : TagId) : TagSet :=
  (s.allowed.lookup tag).getD TagSet.empty

/-- The number of a tag that some package carries. -/
def lookup (tags : TagTable) (place : TagPlace) (raw : String) : Except ConfigError TagId :=
  match tags.get? raw with
  | some id => .ok id
  | none => .error (.unknownTag raw place)

/-- The numbers of the dependencies of constraint `i`, from position `j` on. -/
def lookupAll (tags : TagTable) (i : Nat) : Nat → List String → Except ConfigError (List TagId)
  | _, [] => .ok []
  | j, dep :: deps => do
    let id ← lookup tags (.dependency i j) dep
    return id :: (← lookupAll tags i (j + 1) deps)

def allow (s : ConstraintSet) (tag : TagId) (deps : List TagId) : ConstraintSet :=
  ⟨(tag, deps.foldl TagSet.insert (s.of tag)) :: s.allowed.filter (·.1 ≠ tag)⟩

/-- Adds constraints that start at index `i`. -/
def addAll (tags : TagTable) :
    Nat → List Constraint → ConstraintSet → Except ConfigError ConstraintSet
  | _, [], s => .ok s
  | i, c :: cs, s => do
    let tag ← lookup tags (.constraintTag i) c.tag
    let deps ← lookupAll tags i 0 c.dependsOn
    addAll tags (i + 1) cs (s.allow tag deps)

/-- The declared constraints in terms of the tags that packages carry. -/
def ofConstraints (constraints : List Constraint) (tags : TagTable) :
    Except ConfigError ConstraintSet :=
  addAll tags 0 constraints empty

def allowedFor (s : ConstraintSet) (tags : TagSet) : TagSet :=
  tags.ids.foldl (fun out tag => out.union (s.of tag)) TagSet.empty

/-- Whether some tag of one set may depend on some tag of the other. -/
def permits (s : ConstraintSet) (source target : TagSet) : Bool :=
  (s.allowedFor source).intersects target

end ConstraintSet

/-- A position in a file. -/
structure Location where
  file : Path
  line : Nat
  column : Nat
  deriving DecidableEq, Inhabited

namespace Location

def text (l : Location) : String :=
  l.file.text ++ ":" ++ toString l.line ++ ":" ++ toString l.column

/-- By file, line and column. -/
def compare (a b : Location) : Ordering :=
  compareLex (fun a b => Path.compare a.file b.file)
    (compareLex (compareOn (·.line)) (compareOn (·.column))) a b

end Location

def Edge.location (e : Edge) : Location :=
  ⟨e.file, e.line, e.column⟩

/-- The rule that an import violates. -/
inductive ViolationKind where
  | undeclaredDependency
  | strictInterface
  deriving DecidableEq, Inhabited

namespace ViolationKind

def code : ViolationKind → String
  | .undeclaredDependency => "TB001"
  | .strictInterface => "TB002"

def name : ViolationKind → String
  | .undeclaredDependency => "undeclared-dependency"
  | .strictInterface => "strict-interface"

end ViolationKind

/-- An import that violates a rule. -/
structure Violation where
  kind : ViolationKind
  message : String
  edge : Edge
  deriving DecidableEq, Inhabited

namespace Violation

def location (v : Violation) : Location :=
  v.edge.location

/-- The violation on one line. -/
def text (v : Violation) : String :=
  v.location.text ++ ": error [" ++ v.kind.code ++ "] " ++ v.message

/-- The violation on two lines. -/
def format (v : Violation) : String :=
  v.kind.code ++ " " ++ v.kind.name ++ " at " ++ v.location.text ++ "\n  error: " ++ v.message ++
    "\n"

/-- By position, code and imported symbol. -/
def compare (a b : Violation) : Ordering :=
  compareLex (fun a b => Location.compare a.location b.location)
    (compareLex (compareOn (·.kind.code))
      (fun a b => Symbol.compare a.edge.symbol b.edge.symbol)) a b

/-- The violation of an edge between packages whose tags do not permit it. -/
def undeclared (tags : TagTable) (e : Edge) (source target : Package) : Violation where
  kind := .undeclaredDependency
  edge := e
  message :=
    "Cannot import '" ++ e.qualified ++ "'. Tags " ++ tags.display source.tags ++ " of '" ++
      source.name ++ "' cannot depend on " ++ tags.display target.tags ++ " of '" ++ target.name ++
      "'."

def strictDetail (e : Edge) (source : Package) : String :=
  match e.symbol with
  | .wildcard =>
    "Importing '" ++ e.module ++ "' as a whole from '" ++ source.name ++
      "' bypasses its public interface."
  | .name _ =>
    "The import '" ++ e.qualified ++ "' (in '" ++ source.name ++
      "') is not listed in the package's __all__."

/-- The violation of an edge past the interface of a strict package. -/
def pastInterface (e : Edge) (source target : Package) : Violation where
  kind := .strictInterface
  edge := e
  message :=
    "Package '" ++ target.name ++
      "' is in strict mode. Only imports from its public interface are allowed. " ++
      strictDetail e source

end Violation

/-- Whether an edge imports a name that its target exports from the target's own module. -/
def Edge.throughInterface (e : Edge) (target : Package) : Bool :=
  match e.symbol with
  | .name n => e.module = target.module && target.exports n
  | .wildcard => false

namespace PackageTree

def package (t : PackageTree) (id : PackageId) : Except CheckError Package :=
  match t.get? id with
  | some p => .ok p
  | none => .error (.unknownPackage id)

def ends (t : PackageTree) (e : Edge) : Except CheckError (Package × Package) := do
  let source ← t.package e.fromPackage
  let target ← t.package e.toPackage
  return (source, target)

end PackageTree

def Edge.violations (tree : PackageTree) (constraints : ConstraintSet) (e : Edge)
    (source target : Package) : List Violation :=
  (if constraints.permits source.tags target.tags then []
    else [Violation.undeclared tree.tags e source target]) ++
  (if target.strict && !e.throughInterface target then [Violation.pastInterface e source target]
    else [])

/-- The violations of the edges of a graph that are not suppressed, sorted. -/
def check (graph : Graph) (tree : PackageTree) (constraints : ConstraintSet) :
    Except CheckError (List Violation) := do
  let found ← graph.activeEdges.mapM fun e => do
    let (source, target) ← tree.ends e
    return e.violations tree constraints source target
  return Sorted.sort Violation.compare found.flatten

/-- What checking a project finds. -/
structure CheckResult where
  violations : List Violation
  warnings : List Warning
  filesChecked : Nat
  noFirstPartyImports : Bool
  deriving DecidableEq, Inhabited

namespace CheckResult

/-- The remark on a project whose files import nothing from its packages. -/
def noFirstPartyNotice : String :=
  "No first-party imports were found. Check that `source_roots` lists the directories your " ++
    "packages are imported from."

def isClean (r : CheckResult) : Bool :=
  r.violations.isEmpty && r.warnings.isEmpty

def counts (r : CheckResult) : Nat × Nat :=
  let undeclared := (r.violations.filter (·.kind = .undeclaredDependency)).length
  (undeclared, r.violations.length - undeclared)

def summary (r : CheckResult) : String :=
  "Found " ++ toString r.counts.1 ++ " undeclared dependency(ies), " ++ toString r.counts.2 ++
    " strict interface violation(s) in " ++ toString r.filesChecked ++ " file(s)"

def report (r : CheckResult) : String :=
  Text.join "" (r.violations.map fun v => v.format ++ "\n") ++
    Text.join "" (r.warnings.map fun w => "warning: " ++ w.text ++ "\n") ++
    (if r.noFirstPartyImports then "warning: " ++ noFirstPartyNotice ++ "\n" else "") ++
    r.summary ++ "\n"

end CheckResult

end ImportFence
