import ImportFence.Import
import ImportFence.Package

/-!
# The import graph

An edge for each name that a file of one package imports from another package. Files are read one
by one; a file that does not parse gives a warning and no edge.
-/

namespace ImportFence

/-- What one edge imports: a name out of a module, or the module as a whole. -/
inductive Symbol where
  | name (text : String)
  | wildcard
  deriving DecidableEq, Inhabited

namespace Symbol

/-- The place of a symbol's kind in the order of symbols. -/
def rank : Symbol → Nat
  | .name _ => 0
  | .wildcard => 1

def text : Symbol → String
  | .name n => n
  | .wildcard => "*"

/-- Names in ascending order, then the wildcard. -/
def compare (a b : Symbol) : Ordering :=
  compareLex (compareOn rank) (compareOn text) a b

def qualify (module : String) : Symbol → String
  | .name n => Module.join module n
  | .wildcard => module

end Symbol

def ImportedNames.symbols : ImportedNames → List Symbol
  | .wildcard => [.wildcard]
  | .names ns => ns.map .name

/-- An import of a symbol across packages. -/
structure Edge where
  file : Path
  line : Nat
  column : Nat
  fromPackage : PackageId
  toPackage : PackageId
  module : String
  symbol : Symbol
  suppressed : Bool
  reason : Option String
  deriving DecidableEq, Inhabited

namespace Edge

def qualified (e : Edge) : String :=
  e.symbol.qualify e.module

/-- By file, line, column, symbol and target. -/
def compare (a b : Edge) : Ordering :=
  compareLex (fun a b => Path.compare a.file b.file)
    (compareLex (compareOn (·.line))
      (compareLex (compareOn (·.column))
        (compareLex (fun a b => Symbol.compare a.symbol b.symbol)
          (compareOn (·.toPackage))))) a b

end Edge

/-- A file that was left out, and why. -/
structure Warning where
  file : Path
  message : String
  deriving DecidableEq, Inhabited

namespace Warning

def text (w : Warning) : String :=
  w.file.text ++ ": skipped, " ++ w.message

/-- By file. -/
def compare (a b : Warning) : Ordering :=
  Path.compare a.file b.file

end Warning

/-- The imports across the packages of a project. -/
structure Graph where
  edges : List Edge
  warnings : List Warning
  filesAnalyzed : Nat
  /-- Number of imported symbols that resolve to a package of the project, the importing one
  included. -/
  firstPartyImports : Nat
  deriving DecidableEq, Inhabited

namespace Graph

/-- The graph of no files. -/
def empty : Graph := ⟨[], [], 0, 0⟩

/-- The edges that count: those not suppressed. -/
def activeEdges (g : Graph) : List Edge :=
  g.edges.filter fun e => !e.suppressed

def dependenciesOf (g : Graph) (id : PackageId) : List Edge :=
  g.edges.filter (·.fromPackage = id)

def usagesOf (g : Graph) (id : PackageId) : List Edge :=
  g.edges.filter (·.toPackage = id)

end Graph

/-- What a graph is built with. -/
structure GraphOptions where
  tree : PackageTree
  extractor : Extractor
  sourceRoots : List Path
  ignoreTypeChecking : Bool

namespace GraphOptions

def target? (o : GraphOptions) (qualified : String) : Option Package :=
  if qualified = "" then none else o.tree.resolveModule? qualified

/-- The absolute name of the module that an import in a file names. None if its dots climb above
the source root. -/
def absoluteModule? (fileModule : String) (file : Path) (i : Import) : Option String :=
  if i.level = 0 then some i.module
  else Module.resolveRelative? fileModule (Module.isPackageFile file) i.level i.module

/-- The symbols that an import of a file binds from the packages of the project, each with its
module and the package. -/
def targets (o : GraphOptions) (fileModule : String) (file : Path) (i : Import) :
    List (String × Symbol × Package) :=
  match absoluteModule? fileModule file i with
  | none => []
  | some module =>
    i.names.symbols.filterMap fun s => (o.target? (s.qualify module)).map fun p => (module, s, p)

/-- The edge of a symbol that an import of a file takes from a package. -/
def edge (file : Path) (source : Package) (i : Import) (t : String × Symbol × Package) : Edge where
  file := file
  line := i.line
  column := i.column
  fromPackage := source.id
  toPackage := t.2.2.id
  module := t.1
  symbol := t.2.1
  suppressed := i.suppressed
  reason := i.reason

/-- The graph of one file, edges in the order of the imports. A file that is not of the language,
in no package or below no source root adds nothing. -/
def ofFile (o : GraphOptions) (f : SourceFile) : Graph :=
  if !o.extractor.handles f.path then Graph.empty
  else
    match o.tree.resolve? f.path, Module.ofFile? o.sourceRoots f.path with
    | some source, some fileModule =>
      match o.extractor.imports o.ignoreTypeChecking f.content with
      | .error e => { Graph.empty with warnings := [⟨f.path, e.message⟩] }
      | .ok imports =>
        let found := imports.map fun i => (i, o.targets fileModule f.path i)
        { edges := found.flatMap fun (i, ts) =>
            (ts.filter (·.2.2.id ≠ source.id)).map (edge f.path source i)
          warnings := []
          filesAnalyzed := 1
          firstPartyImports := (found.flatMap (·.2)).length }
    | _, _ => Graph.empty

/-- The graph of files, edges and warnings sorted. -/
def build (o : GraphOptions) (files : List SourceFile) : Graph :=
  let graphs := files.map o.ofFile
  { edges := Sorted.sort Edge.compare (graphs.flatMap (·.edges))
    warnings := Sorted.sort Warning.compare (graphs.flatMap (·.warnings))
    filesAnalyzed := graphs.foldr (fun g n => g.filesAnalyzed + n) 0
    firstPartyImports := graphs.foldr (fun g n => g.firstPartyImports + n) 0 }

end GraphOptions

end ImportFence
