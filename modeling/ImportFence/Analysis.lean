import ImportFence.Discovery
import ImportFence.Report
import ImportFence.Sync

/-!
# Analysing a project

A run over a project on disk: find its files, build the tree of packages and the import graph, then
check, synchronise or report. Every problem of configuration is found before a source is read.
-/

namespace ImportFence

/-- Why a project cannot be analysed. -/
inductive AnalysisError where
  | config (cause : ConfigError)
  | rootNotDirectory (path : Path)
  | walk
  | cancelled
  | noExtractor
  | report (cause : ReportError)
  | internal (cause : CheckError)
  deriving DecidableEq, Inhabited

namespace AnalysisError

def message : AnalysisError → String
  | .config cause => "configuration error: " ++ cause.message
  | .rootNotDirectory path => "failed to read " ++ path.text ++ ": not a directory"
  | .walk => "failed to walk project"
  | .cancelled => "analysis cancelled"
  | .noExtractor => "no language extractor configured"
  | .report cause => cause.message
  | .internal cause => cause.message

def ofDiscovery : DiscoveryError → AnalysisError
  | .walk => .walk
  | .config cause => .config cause

def ofReport : ReportError → AnalysisError
  | .check cause => .internal cause
  | cause => .report cause

end AnalysisError

/-- What an analysis is asked to look at. -/
structure AnalysisRequest where
  root : Path
  config : Config
  extractor : Option Extractor
  excludes : List String
  cancelled : Bool

/-- An analysis whose root is a directory and whose configuration is valid. -/
structure Analysis where
  root : Path
  config : Config
  extractor : Extractor
  excludes : List Glob
  cancelled : Bool

/-- The packages of a project and the imports across them. -/
structure Project where
  tree : PackageTree
  graph : Graph
  deriving DecidableEq, Inhabited

/-- Checks a request. Of several problems the first in this order counts: no extractor, a root that
is no directory, an invalid configuration, an invalid further pattern. -/
def AnalysisRequest.prepare (r : AnalysisRequest) (d : Disk) : Except AnalysisError Analysis := do
  let some extractor := r.extractor | throw .noExtractor
  if !d.isDirectory r.root then throw (.rootNotDirectory r.root)
  r.config.validate.mapError .config
  let excludes ← (r.excludes.mapM fun pattern =>
    (Glob.parse pattern).mapError (ConfigError.invalidGlob pattern)).mapError .config
  return { root := r.root, config := r.config, extractor, excludes, cancelled := r.cancelled }

namespace Analysis

/-- The tree of packages and the files of a project. No source is read yet. -/
def packages (a : Analysis) (d : Disk) : Except AnalysisError (PackageTree × Discovery) := do
  if a.cancelled then throw .cancelled
  let found ← (discover d a.root a.config a.excludes a.extractor).mapError .ofDiscovery
  let tree ← (PackageTree.build found.packages a.config.sourceRoots).mapError .config
  return (tree, found)

/-- The import graph of the files. A file that is no text counts only inside a package. -/
def graph (a : Analysis) (tree : PackageTree) (found : Discovery) : Graph :=
  let options : GraphOptions := {
    tree
    extractor := a.extractor
    sourceRoots := a.config.sourceRoots
    ignoreTypeChecking := a.config.ignoreTypeChecking }
  let g := options.build found.files
  let skipped := found.warnings.filter fun w => (tree.resolve? w.file).isSome
  { g with warnings := Sorted.sort Warning.compare (g.warnings ++ skipped) }

def load (a : Analysis) (d : Disk) : Except AnalysisError Project := do
  let (tree, found) ← a.packages d
  return ⟨tree, a.graph tree found⟩

/-- The violations of the declared constraints, which may name only tags that packages carry. -/
def check (a : Analysis) (d : Disk) : Except AnalysisError CheckResult := do
  let (tree, found) ← a.packages d
  let constraints ←
    (ConstraintSet.ofConstraints a.config.constraints tree.tags).mapError .config
  let graph := a.graph tree found
  let violations ← (ImportFence.check graph tree constraints).mapError .internal
  return {
    violations
    warnings := graph.warnings
    filesChecked := graph.filesAnalyzed
    noFirstPartyImports := 0 < graph.filesAnalyzed && graph.firstPartyImports = 0 }

/-- The changes that make the constraints match the imports. -/
def sync (a : Analysis) (d : Disk) (prune : Bool) : Except AnalysisError Patch := do
  let project ← a.load d
  (ImportFence.sync project.graph project.tree a.config.constraints prune).mapError .internal

/-- A report on the package with a root. An empty report is refused before any file is looked at. -/
def report (a : Analysis) (d : Disk) (root : Path) (sections : Sections) :
    Except AnalysisError Report := do
  if !sections.dependencies && !sections.usages then throw (.report .nothingToReport)
  let project ← a.load d
  (Report.build project.graph project.tree root sections).mapError .ofReport

end Analysis

end ImportFence
