import ImportFence.Proofs.Lookup

/-!
# The innermost package owns a file

The roots around a file all begin its components, so of any two of them one begins the other. No two
packages of a tree share a root: the deepest root around a file is unique, and the rule that the
later of two equally deep packages wins never has to decide. What is found depends on the declared
roots, not on their order, and on the steps of the path, not on its spelling.
-/

namespace ImportFence

namespace Path

/-- Two spellings of one path: both start at the root directory or neither does, and the texts
between their slashes are the same, empty ones and `.` left out. -/
def Respells (p q : Path) : Prop :=
  p.isAbsolute = q.isAbsolute ∧ p.segments.filter (· ≠ ".") = q.segments.filter (· ≠ ".")

instance (p q : Path) : Decidable (p.Respells q) :=
  inferInstanceAs (Decidable (_ ∧ _))

lemma relativeSteps_eq (p : Path) :
    p.relativeSteps = (p.segments.filter (· ≠ ".")).map Component.ofText := by
  have hcurrent : ∀ t, Component.ofText t = .current ↔ t = "." := by
    intro t
    rw [Component.ofText]
    split_ifs with hdot hdots
    · simp [hdot]
    · simp [hdots]
    · simp [hdot]
  rw [relativeSteps, List.filter_map]
  congr 2
  funext t
  simp [hcurrent]

lemma Respells.steps_eq {p q : Path} (h : p.Respells q) : p.steps = q.steps := by
  obtain ⟨habsolute, hsegments⟩ := h
  rw [Path.steps_eq, Path.steps_eq, relativeSteps_eq, relativeSteps_eq, habsolute, hsegments]

end Path

/-- Packages of two trees with the same declaration, whatever its place among the others. -/
def Package.SameOrigin (sourceRoots : List Path) (declarations declarations' : List Declaration)
    (p p' : Package) : Prop :=
  ∃ d, declarations[p.id]? = some d ∧ p.Follows sourceRoots d ∧
    declarations'[p'.id]? = some d ∧ p'.Follows sourceRoots d

namespace PackageTree

variable {sourceRoots : List Path} {declarations declarations' : List Declaration}
  {t t' : PackageTree} {p q : Package} {file : Path}

/-- A package whose root lies around a file with the greatest number of components. -/
structure Innermost (t : PackageTree) (p : Package) (file : Path) : Prop where
  mem : p ∈ t.packages
  around : p.root.components <+: file.normalize.components
  deepest : ∀ q ∈ t.packages, q.root.components <+: file.normalize.components →
    q.root.components.length ≤ p.root.components.length

lemma Innermost.isPrefix (hp : t.Innermost p file) (hq : q ∈ t.packages)
    (haround : q.root.components <+: file.normalize.components) :
    q.root.components <+: p.root.components :=
  List.prefix_of_prefix_length_le haround hp.around (hp.deepest q hq haround)

lemma Innermost.unique (ht : t.Follows sourceRoots declarations) (hp : t.Innermost p file)
    (hq : t.Innermost q file) : p = q := by
  have hbegins : p.root.components <+: q.root.components := hq.isPrefix hp.mem hp.around
  have hlength : p.root.components.length = q.root.components.length :=
    Nat.le_antisymm hbegins.length_le (hp.deepest q hq.mem hq.around)
  exact ht.eq_of_root hp.mem hq.mem (hbegins.eq_of_length hlength)

lemma resolve?_eq_none_iff :
    t.resolve? file = none ↔
      ∀ p ∈ t.packages, ¬ p.root.components <+: file.normalize.components := by
  have hselects := selects_resolve? t file
  rw [Path.components_normalize]
  cases hfound : t.resolve? file with
  | none =>
    rw [hfound] at hselects
    exact iff_of_true rfl hselects
  | some p =>
    rw [hfound] at hselects
    obtain ⟨hp, haround, -⟩ := hselects
    exact iff_of_false (by simp) fun hnone => hnone p hp haround

lemma innermost_of_resolve? (h : t.resolve? file = some p) : t.Innermost p file := by
  have hselects := selects_resolve? t file
  rw [h] at hselects
  obtain ⟨hp, haround, hdeepest⟩ := hselects
  rw [Package.Contains, ← Path.components_normalize] at haround
  refine ⟨hp, haround, fun q hq hq' => hdeepest q hq ?_⟩
  rwa [Path.components_normalize] at hq'

lemma resolve?_eq_some_iff (ht : t.Follows sourceRoots declarations) :
    t.resolve? file = some p ↔ t.Innermost p file := by
  refine ⟨innermost_of_resolve?, fun hp => ?_⟩
  cases hfound : t.resolve? file with
  | none => exact absurd hp.around (resolve?_eq_none_iff.mp hfound p hp.mem)
  | some q => rw [(innermost_of_resolve? hfound).unique ht hp]

/-! ### Other orders of the declarations -/

lemma Follows.declaration_at (ht : t.Follows sourceRoots declarations) {k : Nat}
    (hp : t.packages[k]? = some p) :
    ∃ d, declarations[k]? = some d ∧ p.Follows sourceRoots d := by
  obtain ⟨hk, rfl⟩ := List.getElem?_eq_some_iff.mp hp
  have hk' : k < declarations.length := ht.package.length_eq ▸ hk
  exact ⟨_, List.getElem?_eq_getElem hk', ht.package.get hk hk'⟩

lemma Follows.package_at (ht : t.Follows sourceRoots declarations) {k : Nat} {d : Declaration}
    (hd : declarations[k]? = some d) :
    ∃ p, t.packages[k]? = some p ∧ p.Follows sourceRoots d := by
  obtain ⟨hk, rfl⟩ := List.getElem?_eq_some_iff.mp hd
  have hk' : k < t.packages.length := ht.package.length_eq ▸ hk
  exact ⟨_, List.getElem?_eq_getElem hk', ht.package.get hk' hk⟩

section Reordered

variable (hperm : declarations.Perm declarations') (hfollows : t.Follows sourceRoots declarations)
  (hfollows' : t'.Follows sourceRoots declarations')

include hperm

lemma exists_build_of_perm (hbuild : build declarations sourceRoots = .ok t) :
    ∃ t', build declarations' sourceRoots = .ok t' := by
  obtain ⟨hadmissible, hdistinct⟩ := exists_build_iff.mp ⟨t, hbuild⟩
  refine exists_build_iff.mpr ⟨fun d hd => hadmissible d (hperm.mem_iff.mpr hd), ?_⟩
  rw [DistinctRoots] at hdistinct ⊢
  exact ((hperm.map _).map _).nodup_iff.mp hdistinct

include hfollows hfollows'

lemma exists_root_of_perm (hq : q ∈ t'.packages) : ∃ p ∈ t.packages, p.root = q.root := by
  have hroots : (t.packages.map (·.root)).Perm (t'.packages.map (·.root)) := by
    rw [hfollows.map_root, hfollows'.map_root]
    exact hperm.map _
  exact List.mem_map.mp (hroots.mem_iff.mpr (List.mem_map_of_mem hq))

lemma resolve?_of_perm (ht : t.Represents declarations) (ht' : t'.Represents declarations')
    (file : Path) :
    Option.Rel (Package.SameOrigin sourceRoots declarations declarations') (t.resolve? file)
      (t'.resolve? file) := by
  cases hfound : t.resolve? file with
  | none =>
    have hnone : t'.resolve? file = none := by
      refine resolve?_eq_none_iff.mpr fun q hq => ?_
      obtain ⟨p, hp, hroot⟩ := exists_root_of_perm hperm hfollows hfollows' hq
      exact hroot ▸ resolve?_eq_none_iff.mp hfound p hp
    rw [hnone]
    exact .none
  | some p =>
    have hp := innermost_of_resolve? hfound
    obtain ⟨d, hd, hpd⟩ := hfollows.declaration_at (ht.get?_id hp.mem)
    obtain ⟨k, hk⟩ := List.mem_iff_getElem?.mp (hperm.mem_iff.mp (List.mem_of_getElem? hd))
    obtain ⟨p', hp', hpd'⟩ := hfollows'.package_at hk
    have hmem := List.mem_of_getElem? hp'
    have hroot : p'.root = p.root := hpd'.root_eq.trans hpd.root_eq.symm
    have hinnermost : t'.Innermost p' file := by
      refine ⟨hmem, hroot ▸ hp.around, fun q hq haround => ?_⟩
      obtain ⟨r, hr, hrq⟩ := exists_root_of_perm hperm hfollows hfollows' hq
      rw [hroot, ← hrq]
      exact hp.deepest r hr (hrq ▸ haround)
    rw [(resolve?_eq_some_iff hfollows').mpr hinnermost]
    exact .some ⟨d, hd, hpd, ht'.id_eq k p' hp' ▸ hk, hpd'⟩

end Reordered

/-- A file belongs to the unique package with the deepest root around it; the roots of all other
packages around the file lie strictly above that one. Neither the spelling of the path nor the order
of the declarations counts. -/
theorem resolve?_innermost (hbuild : build declarations sourceRoots = .ok t) (file : Path) :
    (t.resolve? file = none ↔
      ∀ p ∈ t.packages, ¬ p.root.components <+: file.normalize.components) ∧
    ((∃ p ∈ t.packages, p.root.components <+: file.normalize.components) →
      ∃! p, t.Innermost p file) ∧
    (∀ p, t.resolve? file = some p ↔ t.Innermost p file) ∧
    (∀ p, t.resolve? file = some p → ∀ q ∈ t.packages, q ≠ p →
      q.root.components <+: file.normalize.components →
        q.root.components <+: p.root.components ∧ q.root.components ≠ p.root.components) ∧
    (∀ file', file.Respells file' → t.resolve? file' = t.resolve? file) ∧
    ∀ declarations', declarations.Perm declarations' →
      ∃ t', build declarations' sourceRoots = .ok t' ∧
        Option.Rel (Package.SameOrigin sourceRoots declarations declarations') (t.resolve? file)
          (t'.resolve? file) := by
  have hfollows := build_follows hbuild
  refine ⟨resolve?_eq_none_iff, ?_, fun p => resolve?_eq_some_iff hfollows, ?_, ?_, ?_⟩
  · rintro ⟨q, hq, haround⟩
    cases hfound : t.resolve? file with
    | none => exact absurd haround (resolve?_eq_none_iff.mp hfound q hq)
    | some p =>
      have hp := innermost_of_resolve? hfound
      exact ⟨p, hp, fun r hr => hr.unique hfollows hp⟩
  · intro p hfound q hq hne haround
    have hp := innermost_of_resolve? hfound
    exact ⟨hp.isPrefix hq haround, fun heq => hne (hfollows.eq_of_root hq hp.mem heq)⟩
  · intro file' hrespells
    rw [resolve?, resolve?, hrespells.steps_eq]
  · intro declarations' hperm
    obtain ⟨t', hbuild'⟩ := exists_build_of_perm hperm hbuild
    exact ⟨t', hbuild', resolve?_of_perm hperm hfollows (build_follows hbuild')
      (build_represents hbuild) (build_represents hbuild') file⟩

end PackageTree

/-- A file of the inner of two packages, and a directory that only shares letters with the outer
one. -/
theorem PackageTree.resolve?_innermost_sample :
    PackageTree.build Sample.nestedDeclarations [⟨"src"⟩] = .ok Sample.nestedTree ∧
    Sample.nestedTree.resolve? ⟨"src/a/b/c.py"⟩ = Sample.nestedTree.packages[1]? ∧
    Sample.nestedTree.resolve? ⟨"./src//a/./b/c.py"⟩ = Sample.nestedTree.packages[1]? ∧
    Sample.nestedTree.resolve? ⟨"src/ab/c.py"⟩ = none ∧
    ∃ t', PackageTree.build Sample.nestedDeclarations.reverse [⟨"src"⟩] = .ok t' ∧
      (t'.resolve? ⟨"src/a/b/c.py"⟩).map (·.root) = some ⟨"src/a/b"⟩ := by
  have hbuild : build Sample.nestedDeclarations [⟨"src"⟩] = .ok Sample.nestedTree := by
    decide +kernel
  obtain ⟨-, -, hinner, -, hspelling, horder⟩ := resolve?_innermost hbuild ⟨"src/a/b/c.py"⟩
  obtain ⟨hnone, -⟩ := resolve?_innermost hbuild ⟨"src/ab/c.py"⟩
  have hfound : Sample.nestedTree.resolve? ⟨"src/a/b/c.py"⟩ = Sample.nestedTree.packages[1]? :=
    (hinner ⟨1, ⟨"src/a/b"⟩, "a.b", ⟨[1]⟩, false, none⟩).mpr
      ⟨by decide +kernel, by decide +kernel, by decide +kernel⟩
  refine ⟨hbuild, hfound, ?_, hnone.mpr (by decide +kernel), ?_⟩
  · rw [hspelling ⟨"./src//a/./b/c.py"⟩ (by decide +kernel), hfound]
  · obtain ⟨t', hbuild', hsame⟩ := horder _ (List.reverse_perm _).symm
    refine ⟨t', hbuild', ?_⟩
    rw [hfound] at hsame
    generalize t'.resolve? ⟨"src/a/b/c.py"⟩ = found at hsame
    cases hsame with
    | some horigin =>
      obtain ⟨d, hd, -, -, hp'⟩ := horigin
      cases hd
      rw [Option.map_some, hp'.root_eq]
      decide +kernel

end ImportFence
