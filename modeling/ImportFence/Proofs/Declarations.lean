import ImportFence.Proofs.PackageTree
import ImportFence.Proofs.Paths
import Mathlib.Data.List.Nodup

/-!
# Which declarations make a tree

Declarations build exactly if each of them is admissible and no two have the same root. What a
package takes from its declaration does not depend on the declarations around it, and the table of a
tree holds the tags of all declarations and no others.
-/

namespace ImportFence
open Traversal

/-- No two paths have the same components. -/
def DistinctRoots (roots : List Path) : Prop :=
  (roots.map Path.components).Nodup

/-- A declaration that every tree without its root accepts. -/
structure Declaration.Admissible (sourceRoots : List Path) (d : Declaration) : Prop where
  tagged : d.tags ≠ []
  nonblank : ∀ raw ∈ d.tags, Text.trim raw ≠ ""
  below : (Module.ofDirectory? sourceRoots d.root.normalize).isSome = true
  interface : d.strict = true → d.publicNames.isSome = true

/-- A package takes all but its number and its tags from a declaration. -/
structure Package.Follows (sourceRoots : List Path) (p : Package) (d : Declaration) : Prop where
  root_eq : p.root = d.root.normalize
  module_eq : Module.ofDirectory? sourceRoots p.root = some p.module
  strict_eq : p.strict = d.strict
  publicNames_eq : p.publicNames = d.publicNames.map firstOccurrences

/-- A tree that declarations led to without a failure. -/
structure PackageTree.Follows (sourceRoots : List Path) (t : PackageTree)
    (declarations : List Declaration) : Prop where
  package : List.Forall₂ (Package.Follows sourceRoots) t.packages declarations
  admissible : ∀ d ∈ declarations, d.Admissible sourceRoots
  distinct : DistinctRoots (t.packages.map (·.root))
  wellFormed : t.tags.WellFormed
  mem_names : ∀ n, n ∈ t.tags.names ↔ ∃ d ∈ declarations, ∃ raw ∈ d.tags, n = Text.trim raw

lemma map_eq_of_related {α β γ : Type} {R : α → β → Prop} {xs : List α} {ys : List β} {f : α → γ}
    {g : β → γ} (h : List.Forall₂ R xs ys) (hfg : ∀ x y, R x y → f x = g y) :
    xs.map f = ys.map g := by
  rw [← List.forall₂_eq_eq_eq, List.forall₂_map_left_iff, List.forall₂_map_right_iff]
  exact h.imp hfg

namespace TagTable

lemma exists_intern (t : TagTable) {raw : String} (h : Text.trim raw ≠ "") :
    ∃ id t', t.intern raw = .ok (id, t') := by
  cases hget : t.get? raw with
  | some id => exact ⟨id, t, intern_of_known h hget⟩
  | none => exact ⟨_, _, intern_of_new h hget⟩

lemma intern_names {t t' : TagTable} (ht : t.WellFormed) {raw : String} {id : TagId}
    (h : t.intern raw = .ok (id, t')) (n : String) :
    n ∈ t'.names ↔ n ∈ t.names ∨ n = Text.trim raw := by
  obtain ⟨-, ⟨hget, rfl⟩ | ⟨-, -, rfl⟩⟩ := intern_cases h
  · obtain ⟨i, hi, -⟩ := get?_eq_some ht hget
    constructor
    · exact Or.inl
    · rintro (hn | rfl)
      · exact hn
      · exact List.mem_of_getElem? hi
  · simp

end TagTable

namespace PackageTree

lemma exists_internTags (name : String) {raws : List String} (h : ∀ raw ∈ raws, Text.trim raw ≠ "")
    (i : Nat) (table : TagTable) (set : TagSet) :
    ∃ found, internTags name i raws table set = .ok found := by
  induction raws generalizing i table set with
  | nil => exact ⟨_, rfl⟩
  | cons raw raws ih =>
    obtain ⟨hraw, hraws⟩ := List.forall_mem_cons.mp h
    obtain ⟨id, next, hintern⟩ := table.exists_intern hraw
    rw [internTags, hintern]
    exact ih hraws _ _ _

lemma nonblank_of_internTags {name : String} {raws : List String} {i : Nat}
    {table table' : TagTable} {set set' : TagSet}
    (h : internTags name i raws table set = .ok (set', table')) :
    ∀ raw ∈ raws, Text.trim raw ≠ "" := by
  induction raws generalizing i table set with
  | nil => simp
  | cons raw raws ih =>
    rw [internTags] at h
    cases hintern : table.intern raw with
    | error e =>
      rw [hintern] at h
      cases e
      cases h
    | ok found =>
      obtain ⟨id, next⟩ := found
      rw [hintern] at h
      exact List.forall_mem_cons.mpr ⟨(TagTable.intern_cases hintern).1, ih h⟩

lemma internTags_names {name : String} {raws : List String} {i : Nat} {table table' : TagTable}
    {set set' : TagSet} (hwf : table.WellFormed)
    (h : internTags name i raws table set = .ok (set', table')) (n : String) :
    n ∈ table'.names ↔ n ∈ table.names ∨ ∃ raw ∈ raws, n = Text.trim raw := by
  induction raws generalizing i table set with
  | nil =>
    cases h
    simp
  | cons raw raws ih =>
    rw [internTags] at h
    cases hintern : table.intern raw with
    | error e =>
      rw [hintern] at h
      cases e
      cases h
    | ok found =>
      obtain ⟨id, next⟩ := found
      rw [hintern] at h
      obtain ⟨hnext, -, -⟩ := TagTable.intern_ok hwf hintern
      rw [ih hnext h, TagTable.intern_names hwf hintern, List.exists_mem_cons_iff, or_assoc]

lemma exists_add_iff {sourceRoots : List Path} {t : PackageTree} {d : Declaration} :
    (∃ t', add sourceRoots t d = .ok t') ↔
      d.Admissible sourceRoots ∧ ∀ p ∈ t.packages, p.root.same d.root.normalize = false := by
  simp only [add_eq_ok_iff]
  constructor
  · rintro ⟨-, htags, hfresh, hinterface, tags, table, module, hintern, hmodule, -⟩
    exact ⟨⟨htags, nonblank_of_internTags hintern, by rw [hmodule]; rfl, hinterface⟩, hfresh⟩
  · rintro ⟨hd, hfresh⟩
    obtain ⟨⟨tags, table⟩, hintern⟩ :=
      exists_internTags d.root.normalize.packageName hd.nonblank 0 t.tags TagSet.empty
    obtain ⟨module, hmodule⟩ := Option.isSome_iff_exists.mp hd.below
    exact ⟨_, hd.tagged, hfresh, hd.interface, tags, table, module, hintern, hmodule, rfl⟩

lemma empty_follows (sourceRoots : List Path) : empty.Follows sourceRoots [] :=
  ⟨List.Forall₂.nil, by simp, List.Pairwise.nil, TagTable.empty_wellFormed,
    by simp [empty, TagTable.empty]⟩

lemma add_follows {sourceRoots : List Path} {t t' : PackageTree} {declarations : List Declaration}
    {d : Declaration} (ht : t.Follows sourceRoots declarations)
    (h : add sourceRoots t d = .ok t') : t'.Follows sourceRoots (declarations ++ [d]) := by
  obtain ⟨hadmissible, hfresh⟩ := exists_add_iff.mp ⟨t', h⟩
  obtain ⟨-, -, -, tags, table, module, hintern, hmodule, rfl⟩ := add_eq_ok_iff.mp h
  obtain ⟨hwf, -⟩ := internTags_ok ht.wellFormed TagSet.empty_ascending hintern
  refine ⟨?_, ?_, ?_, hwf, ?_⟩
  · exact List.rel_append ht.package (List.Forall₂.cons ⟨rfl, hmodule, rfl, rfl⟩ List.Forall₂.nil)
  · intro d' hd'
    rcases List.mem_append.mp hd' with hd' | hd'
    · exact ht.admissible d' hd'
    · rw [List.mem_singleton.mp hd']
      exact hadmissible
  · rw [DistinctRoots, List.map_append, List.map_append]
    refine ht.distinct.append (List.nodup_singleton _) ?_
    simpa [packageOf, Path.same] using hfresh
  · intro n
    rw [internTags_names ht.wellFormed hintern, ht.mem_names]
    simp

/-- What a tree that builds takes from its declarations. -/
theorem build_follows {declarations : List Declaration} {sourceRoots : List Path}
    {t : PackageTree} (h : build declarations sourceRoots = .ok t) :
    t.Follows sourceRoots declarations :=
  build_invariant (empty_follows sourceRoots) add_follows h

lemma Follows.map_root {sourceRoots : List Path} {t : PackageTree}
    {declarations : List Declaration} (ht : t.Follows sourceRoots declarations) :
    t.packages.map (·.root) = declarations.map (·.root.normalize) :=
  map_eq_of_related ht.package fun _ _ h => h.root_eq

section Follows

variable {sourceRoots : List Path} {t : PackageTree} {declarations : List Declaration}
  {p q : Package}

lemma Follows.exists_declaration (ht : t.Follows sourceRoots declarations) (hp : p ∈ t.packages) :
    ∃ d ∈ declarations, p.Follows sourceRoots d := by
  obtain ⟨k, hk, rfl⟩ := List.getElem_of_mem hp
  have hk' : k < declarations.length := ht.package.length_eq ▸ hk
  exact ⟨_, List.getElem_mem hk', ht.package.get hk hk'⟩

lemma Follows.eq_of_root (ht : t.Follows sourceRoots declarations) (hp : p ∈ t.packages)
    (hq : q ∈ t.packages) (h : p.root.components = q.root.components) : p = q := by
  have hnodup : (t.packages.map fun p => p.root.components).Nodup := by
    have hdistinct := ht.distinct
    rwa [DistinctRoots, List.map_map] at hdistinct
  exact List.inj_on_of_nodup_map hnodup hp hq h

end Follows

lemma exists_foldlM_add {sourceRoots : List Path} (rest : List Declaration) (t : PackageTree)
    (hadmissible : ∀ d ∈ rest, d.Admissible sourceRoots)
    (hdistinct : DistinctRoots (t.packages.map (·.root) ++ rest.map (·.root.normalize))) :
    ∃ t', rest.foldlM (add sourceRoots) t = .ok t' := by
  induction rest generalizing t with
  | nil => exact ⟨t, rfl⟩
  | cons d rest ih =>
    obtain ⟨hd, hrest⟩ := List.forall_mem_cons.mp hadmissible
    have hfresh : ∀ p ∈ t.packages, p.root.same d.root.normalize = false := by
      rw [DistinctRoots, List.map_append, List.nodup_append] at hdistinct
      intro p hp
      rw [← Bool.not_eq_true, Path.same_iff]
      exact hdistinct.2.2 _ (by simpa using ⟨p, hp, rfl⟩) _ (by simp)
    obtain ⟨next, hadd⟩ := exists_add_iff.mpr ⟨hd, hfresh⟩
    obtain ⟨-, -, -, tags, table, module, -, -, rfl⟩ := add_eq_ok_iff.mp hadd
    obtain ⟨t', ht'⟩ := ih ⟨t.packages ++ [t.packageOf d module tags], table⟩ hrest
      (by simpa [packageOf] using hdistinct)
    exact ⟨t', by rw [List.foldlM_cons, hadd]; exact ht'⟩

/-- Declarations build exactly if each is admissible and no two have the same root. -/
theorem exists_build_iff {declarations : List Declaration} {sourceRoots : List Path} :
    (∃ t, build declarations sourceRoots = .ok t) ↔
      (∀ d ∈ declarations, d.Admissible sourceRoots) ∧
        DistinctRoots (declarations.map (·.root.normalize)) := by
  constructor
  · rintro ⟨t, h⟩
    have ht := build_follows h
    exact ⟨ht.admissible, ht.map_root ▸ ht.distinct⟩
  · rintro ⟨hadmissible, hdistinct⟩
    exact exists_foldlM_add declarations empty hadmissible hdistinct

end PackageTree

end ImportFence
