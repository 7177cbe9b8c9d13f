import ImportFence.Discovery
import ImportFence.Proofs.FileTree

/-!
# Files that a search does not depend on

A search reads the ignore files, the configurations of packages and the sources. When any other file
is written, the ignore rules stay as they are, the walk visits what it visited, but for the file
itself, and everything is found as before.
-/

namespace ImportFence
open Traversal

/-! ### The ignore rules -/

namespace IgnoreFiles

/-- The first line of a file named `.git`. -/
def link? (x : Place × Entry) : Option String := do
  let _ ← holder? [".git"] x.1
  let .file f := x.2 | none
  f.content.lines.head?

/-- The first lines of the files named `.git`. -/
def links (d : Disk) : List String :=
  d.tree.entries.filterMap link?

/-- Ignore rules are taken from the file at a place, or found through it. -/
inductive Reads (d : Disk) (place : Place) : Prop
  | ignore (h : holder? [".ignore"] place ≠ none)
  | gitignore (h : holder? [".gitignore"] place ≠ none)
  | exclude (h : holder? [".git", "info", "exclude"] place ≠ none)
  | commondir {line : String} {own : List Char} (hline : line ∈ links d)
      (hown : Text.after? "gitdir: ".toList line.toList = some own)
      (h : d.locate (Path.join ⟨String.ofList own⟩ ⟨"commondir"⟩) = .ok place)
  | linked {line : String} {shared : Path} (hline : line ∈ links d)
      (hshared : sharedDirectory? d line = some shared)
      (h : d.locate ((shared.join ⟨"info"⟩).join ⟨"exclude"⟩) = .ok place)

/-- The exclude rules of a repository whose `.git` is the given entry. -/
def linkedRules? (d : Disk) (x : Place × Entry) : Option (Place × List Ignore.Rule) := do
  let dir ← holder? [".git"] x.1
  let .file f := x.2 | none
  let line ← f.content.lines.head?
  let shared ← sharedDirectory? d line
  match d.find ((shared.join ⟨"info"⟩).join ⟨"exclude"⟩) with
  | .ok entry => return (dir, rules entry)
  | .error _ => none

lemma linkedExcludes_eq (d : Disk) :
    linkedExcludes d = d.tree.entries.filterMap (linkedRules? d) := by
  unfold linkedExcludes linkedRules?
  rfl

variable {d d' : Disk} {place : Place}

end IgnoreFiles

/-! ### The walk -/

/-- The names on the way from a directory to an entry below it, with the entry. -/
def FileTree.relative? (root : Place) (x : Place × Entry) : Option (Place × Entry) :=
  match root.isPrefixOf? x.1 with
  | some [] => none
  | some rel => some (rel, x.2)
  | none => none

lemma FileTree.below_eq (t : FileTree) (root : Place) :
    t.below root = t.entries.filterMap (relative? root) := rfl

lemma FileTree.relative?_eq_some_iff {root : Place} {x y : Place × Entry} :
    relative? root x = some y ↔ y.1 ≠ [] ∧ x = (root ++ y.1, y.2) := by
  obtain ⟨p, e⟩ := x
  obtain ⟨rel, e'⟩ := y
  have hbegins : root.isPrefixOf? p = some rel ↔ p = root ++ rel := by
    rw [List.isPrefixOf?_eq_some_iff_append_eq, eq_comm]
  rw [relative?]
  constructor
  · intro h
    split at h
    · cases h
    · rename_i rel' hne hrel
      cases h
      exact ⟨hne, Prod.ext (hbegins.mp hrel) rfl⟩
    · cases h
  · rintro ⟨hne, h⟩
    cases h
    rw [hbegins.mpr rfl]
    split
    · rename_i hnil
      exact absurd (Option.some.inj hnil) hne
    · rename_i hrel
      cases hrel
      rfl
    · rename_i hnone
      cases hnone

/-! ### The search -/

namespace Search

variable {s : Search} {d d' : Disk} {place root : Place}

lemma shown_concat (s : Search) (rel : Place) (n : String) :
    s.shown (rel ++ [n]) = (s.shown rel).join ⟨n⟩ := by
  rw [shown, List.foldl_append]
  rfl

lemma handles_shown {n : String} (hn : Path.IsName n) (rel : Place) :
    s.extractor.handles (s.shown (rel ++ [n])) = s.extractor.handles ⟨n⟩ := by
  have hname : Path.fileName? ⟨n⟩ = some n := by
    rw [Path.fileName?, Path.components_name hn]
    rfl
  rw [shown_concat, Extractor.handles, Extractor.handles, Path.extension?, Path.extension?,
    Path.fileName?_join_name _ hn, hname]

lemma visited_eq (hroot : d.locate s.root = .ok root)
    (hdirectory : d.tree.get? root = some .directory) :
    s.visited d = .ok (walk (fun rel e => (IgnoreFiles.ofDisk d).ignores (root ++ rel)
      e.isDirectory || s.excludes rel) (d.tree.below root)) := by
  rw [visited, hroot]
  dsimp only
  rw [hdirectory]

/-- A search depends on what the visited entries give, not on those that give nothing. -/
lemma run_of_visited {entries : List (Place × Entry)} (h : s.visited d = .ok entries) :
    s.run d = (((entries.mapM s.examine).map (·.filterMap id)).map fun found =>
      ⟨sources found, s.declarations (sources found) found, warnings found⟩).mapError .config := by
  rw [run, h]
  change ((entries.mapM s.examine).mapError DiscoveryError.config >>= _) = _
  cases entries.mapM s.examine <;> rfl

end Search

end ImportFence
