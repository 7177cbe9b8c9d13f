import ImportFence.FileTree
import ImportFence.Ignore.Rule

/-!
# Ignore files of a tree

Every directory may hold rules in `.ignore` and, inside a repository, in `.gitignore` and in the
repository's own exclude file. Of each kind the innermost file with a matching rule decides, and
`.ignore` comes before `.gitignore` before the exclude file.
-/

namespace ImportFence

/-- The rules of the ignore files of a tree, by directory, and the directories that are
repositories. -/
structure IgnoreFiles where
  ignore : List (Place × List Ignore.Rule)
  gitignore : List (Place × List Ignore.Rule)
  exclude : List (Place × List Ignore.Rule)
  repositories : List Place

namespace IgnoreFiles

/-- The directory of an entry below which the given names lead to it. -/
def holder? (names : List String) (p : Place) : Option Place :=
  (names.reverse.isPrefixOf? p.reverse).map List.reverse

def rules : Entry → List Ignore.Rule
  | .directory => []
  | .file f => Ignore.rulesOfLines f.content.lines

/-- The rules of the files that stand below their directories at the given names. -/
def collect (t : FileTree) (names : List String) : List (Place × List Ignore.Rule) :=
  t.entries.filterMap fun (p, e) => (holder? names p).map fun dir => (dir, rules e)

def firstLine? (d : Disk) (p : Path) : Option String :=
  match d.find p with
  | .ok (.file f) => f.content.lines.head?
  | _ => none

/-- The shared part of a repository whose `.git` is a file with the given first line. -/
def sharedDirectory? (d : Disk) (line : String) : Option Path := do
  let target ← Text.after? "gitdir: ".toList line.toList
  let own : Path := ⟨String.ofList target⟩
  let shared ← firstLine? d (own.join ⟨"commondir"⟩)
  return if shared.toList.head? = some '.' then own.join ⟨shared⟩ else ⟨shared⟩

/-- The exclude rules of the repositories whose `.git` is a file. -/
def linkedExcludes (d : Disk) : List (Place × List Ignore.Rule) :=
  d.tree.entries.filterMap fun (p, e) => do
    let dir ← holder? [".git"] p
    let .file f := e | none
    let line ← f.content.lines.head?
    let shared ← sharedDirectory? d line
    match d.find ((shared.join ⟨"info"⟩).join ⟨"exclude"⟩) with
    | .ok entry => return (dir, rules entry)
    | .error _ => none

def ofDisk (d : Disk) : IgnoreFiles where
  ignore := collect d.tree [".ignore"]
  gitignore := collect d.tree [".gitignore"]
  exclude := collect d.tree [".git", "info", "exclude"] ++ linkedExcludes d
  repositories := d.tree.entries.filterMap fun (p, _) => holder? [".git"] p

/-- The directories up to and including the first that is a repository; none if there is none. -/
def withinRepository (f : IgnoreFiles) (dirs : List Place) : List Place :=
  match dirs.dropWhile (!f.repositories.contains ·) with
  | [] => []
  | top :: _ => dirs.takeWhile (!f.repositories.contains ·) ++ [top]

/-- What the rules of the innermost of some directories say of a place. -/
def judge? (table : List (Place × List Ignore.Rule)) (dirs : List Place) (place : Place)
    (isDirectory : Bool) : Option Ignore.Verdict :=
  dirs.findSome? fun dir => do
    let rules ← table.lookup dir
    Ignore.verdictOf? rules (Place.path (place.drop dir.length)).text.toUTF8.toList isDirectory

def verdict? (f : IgnoreFiles) (place : Place) (isDirectory : Bool) : Option Ignore.Verdict :=
  let dirs := Place.upward place.dropLast
  let repository := f.withinRepository dirs
  judge? f.ignore dirs place isDirectory <|>
    judge? f.gitignore repository place isDirectory <|>
    judge? f.exclude repository place isDirectory

def ignores (f : IgnoreFiles) (place : Place) (isDirectory : Bool) : Bool :=
  f.verdict? place isDirectory = some .ignored

end IgnoreFiles

end ImportFence
