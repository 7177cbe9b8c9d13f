import ImportFence.Config.Reader
import ImportFence.Graph
import ImportFence.Ignore.Files

/-!
# Finding the files of a project

A walk through the project's directory finds the sources of a language and the packages that
declare themselves. Nothing below a rejected directory is visited: what the ignore files leave out,
what is hidden, if hidden paths are excluded, and what an exclusion pattern matches.
-/

namespace ImportFence

/-- The file by which a directory declares itself a package. -/
def packageFileName : String := "package.toml"

/-- Why the files of a project cannot be found. -/
inductive DiscoveryError where
  | walk
  | config (cause : ConfigError)
  deriving DecidableEq, Inhabited

/-- What a project consists of, each list ascending by path. Paths are relative to the root. -/
structure Discovery where
  files : List SourceFile
  packages : List Declaration
  warnings : List Warning
  deriving DecidableEq, Inhabited

/-- A file that counts. -/
inductive Found where
  | source (f : SourceFile)
  | package (root : Path) (config : PackageConfig)
  | undecodable (file : Path)
  deriving DecidableEq, Inhabited

/-- What is looked for, and where. -/
structure Search where
  root : Path
  excludeHidden : Bool
  patterns : List Glob
  extractor : Extractor

/-- The entries that stand neither at a place nor below it. -/
def outside (p : Place) (entries : List (Place × Entry)) : List (Place × Entry) :=
  entries.filter fun entry => !p.isPrefixOf entry.1

/-- Leaving a place out never adds entries. -/
theorem length_outside_le (p : Place) (entries : List (Place × Entry)) :
    (outside p entries).length ≤ entries.length :=
  List.length_filter_le _ _

/-- The entries that a walk visits, which leaves out what stands at or below a rejected one. -/
def walk (rejects : Place → Entry → Bool) : List (Place × Entry) → List (Place × Entry)
  | [] => []
  | (p, e) :: rest =>
    if rejects p e then walk rejects (outside p rest) else (p, e) :: walk rejects rest
termination_by entries => entries.length
decreasing_by
  · exact Nat.lt_succ_of_le (length_outside_le p rest)
  · exact Nat.lt_succ_self rest.length

namespace Search

/-- Whether an entry below the root is hidden or excluded. -/
def excludes (s : Search) (rel : Place) : Bool :=
  (s.excludeHidden && rel.path.isHidden) || rel.path.isExcluded s.patterns

/-- The path of an entry below the root, seen from the current directory. -/
def shown (s : Search) (rel : Place) : Path :=
  rel.foldl (fun p name => p.join ⟨name⟩) s.root

/-- What a file at a relative place is to the search. The configuration of a package has to be
readable; a source that is no text is only remarked upon. -/
def classify (s : Search) (rel : Place) (f : File) : Except ConfigError (Option Found) :=
  let path := s.shown rel
  if path.fileName? = some packageFileName then
    match f.content with
    | .text text => do
      let config ← PackageConfig.parse text (some path)
      return some (.package (Place.path rel.dropLast) config)
    | .undecodable _ => .error (.access path .invalidText)
  else if s.extractor.handles path then
    match f.content with
    | .text text => .ok (some (.source ⟨rel.path, text⟩))
    | .undecodable _ => .ok (some (.undecodable rel.path))
  else .ok none

/-- What an entry at a relative place is to the search. -/
def examine (s : Search) (entry : Place × Entry) : Except ConfigError (Option Found) :=
  match entry.2 with
  | .directory => .ok none
  | .file f => s.classify entry.1 f

/-- The entries at and below the root that the search visits. The root itself is never left out. -/
def visited (s : Search) (d : Disk) : Except DiscoveryError (List (Place × Entry)) :=
  match d.locate s.root with
  | .error _ => .error .walk
  | .ok root =>
    match d.tree.get? root with
    | none => .error .walk
    | some (.file f) => .ok [([], .file f)]
    | some .directory =>
      let ignoreFiles := IgnoreFiles.ofDisk d
      let rejects rel (e : Entry) :=
        ignoreFiles.ignores (root ++ rel) e.isDirectory || s.excludes rel
      .ok (walk rejects (d.tree.below root))

/-- The interface that the entry module of a directory declares, if it is among the sources and can
be read. -/
def interface? (s : Search) (files : List SourceFile) (dir : Path) : Option (List String) := do
  let entry ← files.find? fun f => f.path.same (dir.join ⟨s.extractor.entryModule⟩)
  match s.extractor.publicNames entry.content with
  | .ok names => names
  | .error _ => none

def sources (found : List Found) : List SourceFile :=
  Sorted.sort (fun a b => Path.compare a.path b.path) (found.filterMap fun
    | .source f => some f
    | _ => none)

def declarations (s : Search) (files : List SourceFile) (found : List Found) : List Declaration :=
  Sorted.sort (fun a b => Path.compare a.root b.root) (found.filterMap fun
    | .package root config => some {
        root
        tags := config.tags
        strict := config.strict
        publicNames := s.interface? files root }
    | _ => none)

/-- A warning for each source that is no text. -/
def warnings (found : List Found) : List Warning :=
  Sorted.sort Warning.compare (found.filterMap fun
    | .undecodable file => some ⟨file, "file is not valid UTF-8"⟩
    | _ => none)

/-- What is found. The first unreadable package configuration on the way ends the search. -/
def run (s : Search) (d : Disk) : Except DiscoveryError Discovery := do
  let entries ← s.visited d
  let found ← (entries.mapM s.examine).mapError .config
  let found := found.filterMap id
  let files := sources found
  return { files, packages := s.declarations files found, warnings := warnings found }

end Search

def discover (d : Disk) (root : Path) (config : Config) (excludes : List Glob)
    (extractor : Extractor) : Except DiscoveryError Discovery := do
  let patterns ← config.excludePatterns.mapError .config
  let search : Search := {
    root, extractor
    excludeHidden := config.excludeHidden
    patterns := patterns ++ excludes }
  search.run d

end ImportFence
