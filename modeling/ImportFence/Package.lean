import ImportFence.Config.Basic
import ImportFence.Path.Module
import ImportFence.Tag

/-!
# Packages

Packages are directories that declare tags. The tree of a project's packages answers which package
owns a file, by its path, and which owns a module, by its dotted name; the innermost one does.
-/

namespace ImportFence

/-- The number of a package in its tree. -/
abbrev PackageId := Nat

/-- A package as its files declare it. -/
structure Declaration where
  root : Path
  tags : List String
  strict : Bool
  publicNames : Option (List String)
  deriving DecidableEq, Inhabited

/-- A package of a tree. -/
structure Package where
  id : PackageId
  root : Path
  module : String
  tags : TagSet
  strict : Bool
  publicNames : Option (List String)
  deriving DecidableEq, Inhabited

def Path.packageName (p : Path) : String :=
  String.ofList (p.text.toList.map fun c => if c = '\\' then '/' else c)

namespace Package

def name (p : Package) : String :=
  p.root.packageName

/-- Whether a name is part of the public interface. -/
def exports (p : Package) (symbol : String) : Bool :=
  p.publicNames.any (·.contains symbol)

/-- Longer module names first, equally long ones in ascending order. -/
def lookupOrder (a b : Package) : Ordering :=
  compareLex (fun a b => (compareOn (fun p : Package => Text.bytes p.module) a b).swap)
    (compareOn (·.module)) a b

end Package

/-- A list with only the first occurrence of each member. -/
def firstOccurrences (names : List String) : List String :=
  names.foldl (fun kept n => if n ∈ kept then kept else kept ++ [n]) []

/-- The packages of a project, in the order of their declarations, and their tags. -/
structure PackageTree where
  packages : List Package
  tags : TagTable
  deriving DecidableEq, Inhabited

namespace PackageTree

/-- The tree without packages. -/
def empty : PackageTree := ⟨[], TagTable.empty⟩

/-- Numbers the tags of the package called `name`, from position `i` on. -/
def internTags (name : String) :
    Nat → List String → TagTable → TagSet → Except ConfigError (TagSet × TagTable)
  | _, [], table, set => .ok (set, table)
  | i, raw :: raws, table, set =>
    match table.intern raw with
    | .error .blank => .error (.blankTag (.packageTag name i))
    | .ok (id, table) => internTags name (i + 1) raws table (set.insert id)

/-- Adds a declared package to a tree. Of several problems the first in this order counts: no tags,
a root declared before, a blank tag, a root outside the source roots, a strict package without an
interface. -/
def add (sourceRoots : List Path) (t : PackageTree) (d : Declaration) :
    Except ConfigError PackageTree := do
  let root := d.root.normalize
  let name := root.packageName
  if d.tags.isEmpty then throw (.missingTags name)
  if t.packages.any (fun p => p.root.same root) then throw (.duplicateRoot name)
  let (tags, table) ← internTags name 0 d.tags t.tags TagSet.empty
  let some module := Module.ofDirectory? sourceRoots root | throw (.outsideSourceRoots name)
  if d.strict && d.publicNames.isNone then throw (.strictWithoutInterface name)
  let package : Package := {
    id := t.packages.length
    root, module, tags
    strict := d.strict
    publicNames := d.publicNames.map firstOccurrences }
  return ⟨t.packages ++ [package], table⟩

def build (declarations : List Declaration) (sourceRoots : List Path) :
    Except ConfigError PackageTree :=
  declarations.foldlM (add sourceRoots) empty

def get? (t : PackageTree) (id : PackageId) : Option Package :=
  t.packages[id]?

/-- The later of two packages, unless the earlier one has the deeper root. -/
def deeper (best : Option Package) (p : Package) : Option Package :=
  match best with
  | none => some p
  | some b => if b.root.components.length ≤ p.root.components.length then some p else some b

/-- The innermost package whose root contains a file. -/
def resolve? (t : PackageTree) (file : Path) : Option Package :=
  (t.packages.filter fun p => p.root.components.isPrefixOf file.steps).foldl deeper none

/-- The packages in the order in which their module names are tried. -/
def byModule (t : PackageTree) : List Package :=
  Sorted.sort Package.lookupOrder t.packages

/-- The package with the longest module name that covers a module. -/
def resolveModule? (t : PackageTree) (module : String) : Option Package :=
  t.byModule.find? fun p => Module.covers p.module module

def findByRoot? (t : PackageTree) (root : Path) : Option Package :=
  t.packages.find? fun p => p.root.same root.normalize

end PackageTree

end ImportFence
