import ImportFence.Package
import ImportFence.Proofs.Tag
import ImportFence.Proofs.Traversal

/-!
# Trees of packages

A tree that builds holds one package for each declaration, in the same order. The number of a
package is its place, and its tags are exactly the numbers that the final table gives to the tags of
its declaration. Both look-ups return packages of the tree.
-/

namespace ImportFence
open Traversal

/-- A package carries the tags of a declaration, as numbers of a table. -/
structure Package.Represents (table : TagTable) (p : Package) (d : Declaration) : Prop where
  ascending : p.tags.Ascending
  declared : d.tags ≠ []
  numbered : ∀ raw ∈ d.tags, ∃ id, table.get? raw = some id
  mem_tags : ∀ id, id ∈ p.tags.ids ↔ ∃ raw ∈ d.tags, table.get? raw = some id

namespace Package.Represents

lemma mono {table table' : TagTable} {p : Package} {d : Declaration}
    (h : p.Represents table d) (hgrow : table.names <+: table'.names) (hwf : table.WellFormed)
    (hwf' : table'.WellFormed) : p.Represents table' d := by
  have hget : ∀ raw ∈ d.tags, table'.get? raw = table.get? raw := by
    intro raw hraw
    obtain ⟨id, hid⟩ := h.numbered raw hraw
    rw [hid, TagTable.get?_mono hgrow hwf hwf' hid]
  refine ⟨h.ascending, h.declared, ?_, ?_⟩
  · intro raw hraw
    rw [hget raw hraw]
    exact h.numbered raw hraw
  · intro id
    rw [h.mem_tags id]
    constructor
    · rintro ⟨raw, hraw, hid⟩
      exact ⟨raw, hraw, (hget raw hraw).trans hid⟩
    · rintro ⟨raw, hraw, hid⟩
      exact ⟨raw, hraw, (hget raw hraw).symm.trans hid⟩

lemma exists_tag {table : TagTable} {p : Package} {d : Declaration} (h : p.Represents table d) :
    ∃ id, id ∈ p.tags.ids := by
  obtain ⟨raw, hraw⟩ := List.exists_mem_of_ne_nil _ h.declared
  obtain ⟨id, hid⟩ := h.numbered raw hraw
  exact ⟨id, (h.mem_tags id).mpr ⟨raw, hraw, hid⟩⟩

lemma mem_tags_iff {table : TagTable} {p : Package} {d : Declaration} (h : p.Represents table d)
    (hwf : table.WellFormed) (hsize : table.size ≤ TagId.last) {raw : String} {id : TagId}
    (hid : table.get? raw = some id) :
    id ∈ p.tags.ids ↔ Text.trim raw ∈ d.tags.map Text.trim := by
  rw [h.mem_tags, List.mem_map]
  constructor
  · rintro ⟨tag, htag, hget⟩
    exact ⟨tag, htag, TagTable.trim_eq_of_get?_eq hwf hsize hget hid⟩
  · rintro ⟨tag, htag, heq⟩
    exact ⟨tag, htag, (TagTable.get?_congr heq).trans hid⟩

lemma exists_number {table : TagTable} {p : Package} {d : Declaration} (h : p.Represents table d)
    {raw : String} (hraw : Text.trim raw ∈ d.tags.map Text.trim) :
    ∃ id ∈ p.tags.ids, table.get? raw = some id := by
  obtain ⟨tag, htag, heq⟩ := List.mem_map.mp hraw
  obtain ⟨id, hid⟩ := h.numbered tag htag
  exact ⟨id, (h.mem_tags id).mpr ⟨tag, htag, hid⟩, (TagTable.get?_congr heq.symm).trans hid⟩

end Package.Represents

namespace PackageTree

/-- A tree stands for a list of declarations. -/
structure Represents (t : PackageTree) (declarations : List Declaration) : Prop where
  wellFormed : t.tags.WellFormed
  length_eq : t.packages.length = declarations.length
  id_eq : ∀ (k : Nat) (p : Package), t.packages[k]? = some p → p.id = k
  package : ∀ (k : Nat) (p : Package) (d : Declaration), t.packages[k]? = some p →
    declarations[k]? = some d → p.Represents t.tags d

/-- Numbering the tags of one package: the table grows, and the set receives exactly the numbers
that the grown table has for them. -/
lemma internTags_ok {name : String} {raws : List String} {i : Nat} {table table' : TagTable}
    {set set' : TagSet} (hwf : table.WellFormed) (hset : set.Ascending)
    (h : internTags name i raws table set = .ok (set', table')) :
    table'.WellFormed ∧ table.names <+: table'.names ∧ set'.Ascending ∧
      (∀ raw ∈ raws, ∃ id, table'.get? raw = some id) ∧
      ∀ id, id ∈ set'.ids ↔ id ∈ set.ids ∨ ∃ raw ∈ raws, table'.get? raw = some id := by
  induction raws generalizing i table set with
  | nil =>
    cases h
    exact ⟨hwf, List.prefix_rfl, hset, by simp, by simp⟩
  | cons raw raws ih =>
    rw [internTags] at h
    cases hintern : table.intern raw with
    | error e =>
      rw [hintern] at h
      cases e
      cases h
    | ok found =>
      obtain ⟨id, next⟩ := found
      rw [hintern] at h
      obtain ⟨hnext, hgrow, hid⟩ := TagTable.intern_ok hwf hintern
      obtain ⟨hwf', hgrow', hset', hnumbered, hmem⟩ :=
        ih hnext (TagSet.insert_ascending hset id) h
      -- the number of this tag survives the numbering of those behind it
      have hid' : table'.get? raw = some id := TagTable.get?_mono hgrow' hnext hwf' hid
      refine ⟨hwf', hgrow.trans hgrow', hset', ?_, ?_⟩
      · intro r hr
        rcases List.mem_cons.mp hr with rfl | hr
        · exact ⟨id, hid'⟩
        · exact hnumbered r hr
      · intro a
        rw [hmem a, TagSet.mem_insert]
        constructor
        · rintro ((rfl | ha) | ⟨r, hr, hra⟩)
          · exact Or.inr ⟨raw, List.mem_cons_self, hid'⟩
          · exact Or.inl ha
          · exact Or.inr ⟨r, List.mem_cons_of_mem raw hr, hra⟩
        · rintro (ha | ⟨r, hr, hra⟩)
          · exact Or.inl (Or.inr ha)
          · rcases List.mem_cons.mp hr with rfl | hr
            · rw [hid'] at hra
              exact Or.inl (Or.inl (Option.some.inj hra).symm)
            · exact Or.inr ⟨r, hr, hra⟩

/-- The package that a declaration adds behind those of a tree. -/
def packageOf (t : PackageTree) (d : Declaration) (module : String) (tags : TagSet) : Package where
  id := t.packages.length
  root := d.root.normalize
  module := module
  tags := tags
  strict := d.strict
  publicNames := d.publicNames.map firstOccurrences

lemma add_eq (sourceRoots : List Path) (t : PackageTree) (d : Declaration) :
    add sourceRoots t d =
      if d.tags.isEmpty then .error (.missingTags d.root.normalize.packageName)
      else if t.packages.any (fun p => p.root.same d.root.normalize) then
        .error (.duplicateRoot d.root.normalize.packageName)
      else
        match internTags d.root.normalize.packageName 0 d.tags t.tags TagSet.empty with
        | .error e => .error e
        | .ok (tags, table) =>
          match Module.ofDirectory? sourceRoots d.root.normalize with
          | none => .error (.outsideSourceRoots d.root.normalize.packageName)
          | some module =>
            if d.strict && d.publicNames.isNone then
              .error (.strictWithoutInterface d.root.normalize.packageName)
            else .ok ⟨t.packages ++ [t.packageOf d module tags], table⟩ := by
  simp only [add, bind, Except.bind]
  split
  · rfl
  split
  · rfl
  cases internTags d.root.normalize.packageName 0 d.tags t.tags TagSet.empty with
  | error e => rfl
  | ok found =>
    cases Module.ofDirectory? sourceRoots d.root.normalize with
    | none => rfl
    | some module =>
      dsimp only
      split <;> rfl

lemma add_eq_ok_iff {sourceRoots : List Path} {t t' : PackageTree} {d : Declaration} :
    add sourceRoots t d = .ok t' ↔
      d.tags ≠ [] ∧ (∀ p ∈ t.packages, p.root.same d.root.normalize = false) ∧
      (d.strict = true → d.publicNames.isSome = true) ∧
      ∃ tags table module,
        internTags d.root.normalize.packageName 0 d.tags t.tags TagSet.empty = .ok (tags, table) ∧
        Module.ofDirectory? sourceRoots d.root.normalize = some module ∧
        t' = ⟨t.packages ++ [t.packageOf d module tags], table⟩ := by
  rw [add_eq]
  split
  · rename_i htags
    simp [List.isEmpty_iff.mp htags]
  rename_i htags
  split
  · rename_i hfound
    obtain ⟨p, hp, hsame⟩ := List.any_eq_true.mp hfound
    constructor
    · intro h
      cases h
    · rintro ⟨-, hfresh, -⟩
      rw [hfresh p hp] at hsame
      cases hsame
  rename_i hfresh
  cases internTags d.root.normalize.packageName 0 d.tags t.tags TagSet.empty with
  | error e => simp
  | ok found =>
    obtain ⟨tags, table⟩ := found
    cases Module.ofDirectory? sourceRoots d.root.normalize with
    | none => simp
    | some module =>
      have hinterface : (d.strict = true → d.publicNames.isSome = true) ↔
          (d.strict && d.publicNames.isNone) = false := by
        cases d.strict <;> cases d.publicNames <;> simp
      rw [hinterface]
      dsimp only
      cases d.strict && d.publicNames.isNone with
      | true => simp
      | false =>
        constructor
        · intro h
          cases h
          exact ⟨by simpa using htags, by simpa using hfresh, rfl, tags, table, module, rfl, rfl,
            rfl⟩
        · rintro ⟨-, -, -, _, _, _, htable, hmodule, rfl⟩
          cases htable
          cases hmodule
          rfl

lemma add_ok {sourceRoots : List Path} {t t' : PackageTree} {d : Declaration}
    (h : add sourceRoots t d = .ok t') :
    ∃ tags table module, d.tags ≠ [] ∧
      internTags d.root.normalize.packageName 0 d.tags t.tags TagSet.empty = .ok (tags, table) ∧
      t' = ⟨t.packages ++ [t.packageOf d module tags], table⟩ := by
  obtain ⟨htags, -, -, tags, table, module, hintern, -, heq⟩ := add_eq_ok_iff.mp h
  exact ⟨tags, table, module, htags, hintern, heq⟩

lemma empty_represents : empty.Represents [] := by
  refine ⟨TagTable.empty_wellFormed, rfl, ?_, ?_⟩ <;> simp [empty]

lemma add_represents {sourceRoots : List Path} {t t' : PackageTree} {d : Declaration}
    {declarations : List Declaration} (ht : t.Represents declarations)
    (h : add sourceRoots t d = .ok t') : t'.Represents (declarations ++ [d]) := by
  obtain ⟨tags, table, module, htags, hintern, rfl⟩ := add_ok h
  obtain ⟨hwf, hgrow, hasc, hnumbered, hmem⟩ :=
    internTags_ok ht.wellFormed TagSet.empty_ascending hintern
  have hnew : (t.packageOf d module tags).Represents table d :=
    ⟨hasc, htags, hnumbered, fun id => by simpa [TagSet.empty, packageOf] using hmem id⟩
  refine ⟨hwf, by simp [ht.length_eq], ?_, ?_⟩
  · intro k p hp
    rcases lt_or_ge k t.packages.length with hk | hk
    · rw [List.getElem?_append_left hk] at hp
      exact ht.id_eq k p hp
    · rw [List.getElem?_append_right hk, List.getElem?_singleton] at hp
      split at hp
      · cases hp
        change t.packages.length = k
        omega
      · cases hp
  · intro k p d' hp hd
    rcases lt_or_ge k t.packages.length with hk | hk
    · rw [List.getElem?_append_left hk] at hp
      rw [List.getElem?_append_left (ht.length_eq ▸ hk)] at hd
      exact (ht.package k p d' hp hd).mono hgrow ht.wellFormed hwf
    · rw [List.getElem?_append_right hk, List.getElem?_singleton] at hp
      rw [List.getElem?_append_right (ht.length_eq ▸ hk), List.getElem?_singleton,
        ← ht.length_eq] at hd
      split at hp
      · rename_i hlast
        rw [if_pos hlast] at hd
        cases hp
        cases hd
        exact hnew
      · cases hp

/-- What holds of the empty tree and survives each addition holds of every tree that builds. -/
lemma build_invariant {sourceRoots : List Path} {P : PackageTree → List Declaration → Prop}
    (hempty : P empty [])
    (hstep : ∀ {t t' declarations d}, P t declarations → add sourceRoots t d = .ok t' →
      P t' (declarations ++ [d]))
    {declarations : List Declaration} {t : PackageTree}
    (h : build declarations sourceRoots = .ok t) : P t declarations := by
  have hrun : ∀ (rest : List Declaration) {start : PackageTree} {before : List Declaration},
      P start before → rest.foldlM (add sourceRoots) start = .ok t → P t (before ++ rest) := by
    intro rest
    induction rest with
    | nil =>
      intro start before hstart hrest
      cases hrest
      simpa using hstart
    | cons d rest ih =>
      intro start before hstart hrest
      rw [List.foldlM_cons] at hrest
      obtain ⟨next, hadd, hrest⟩ := bind_eq_ok_iff.mp hrest
      simpa using ih (hstep hstart hadd) hrest
  exact hrun declarations hempty h

/-- A tree that builds stands for its declarations. -/
theorem build_represents {declarations : List Declaration} {sourceRoots : List Path}
    {t : PackageTree} (h : build declarations sourceRoots = .ok t) : t.Represents declarations :=
  build_invariant empty_represents add_represents h

/-! ### Look-ups -/

section Represented

variable {t : PackageTree} {declarations : List Declaration}

lemma Represents.get?_id (ht : t.Represents declarations) {p : Package} (hp : p ∈ t.packages) :
    t.get? p.id = some p := by
  obtain ⟨k, hk⟩ := List.mem_iff_getElem?.mp hp
  rw [ht.id_eq k p hk]
  exact hk

lemma Represents.exists_declaration (ht : t.Represents declarations) {id : PackageId}
    {p : Package} (hp : t.get? id = some p) :
    ∃ d, declarations[id]? = some d ∧ p.Represents t.tags d := by
  obtain ⟨hlt, -⟩ := List.getElem?_eq_some_iff.mp hp
  rw [ht.length_eq] at hlt
  have hd := List.getElem?_eq_getElem hlt
  exact ⟨_, hd, ht.package id p _ hp hd⟩

end Represented

lemma foldl_deeper_mem {ps : List Package} {best : Option Package} {p : Package}
    (h : ps.foldl deeper best = some p) : p ∈ ps ∨ best = some p := by
  induction ps generalizing best with
  | nil => exact Or.inr h
  | cons q ps ih =>
    rcases ih h with hmem | hbest
    · exact Or.inl (List.mem_cons_of_mem q hmem)
    · cases best with
      | none =>
        cases hbest
        exact Or.inl List.mem_cons_self
      | some b =>
        rw [deeper] at hbest
        split at hbest
        · cases hbest
          exact Or.inl List.mem_cons_self
        · exact Or.inr hbest

lemma resolve?_mem {t : PackageTree} {file : Path} {p : Package} (h : t.resolve? file = some p) :
    p ∈ t.packages := by
  rcases foldl_deeper_mem h with hmem | hnone
  · exact List.mem_of_mem_filter hmem
  · cases hnone

lemma resolveModule?_mem {t : PackageTree} {module : String} {p : Package}
    (h : t.resolveModule? module = some p) : p ∈ t.packages :=
  (Sorted.sort_perm _ _).mem_iff.mp (List.mem_of_find?_eq_some h)

end PackageTree

end ImportFence
