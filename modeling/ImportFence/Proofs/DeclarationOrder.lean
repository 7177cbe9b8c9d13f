import ImportFence.Proofs.Renumbering

/-!
# The order of declarations does not matter

Whether declarations build depends on each of them alone and on their roots, and the views of a tree
are those of its declarations. Reordering the declarations, or the tags inside them, therefore
renumbers the tree and changes nothing that is found.
-/

namespace ImportFence

/-- A declaration with its tags in another order. -/
def Declaration.Reordered (d d' : Declaration) : Prop :=
  ∃ tags, d.tags.Perm tags ∧ d' = { d with tags := tags }

/-- The same declarations in another order, each with its tags in another order. -/
def Reordered (declarations declarations' : List Declaration) : Prop :=
  ∃ middle, List.Forall₂ Declaration.Reordered declarations middle ∧ middle.Perm declarations'

namespace Declaration.Reordered

variable {d d' : Declaration}

lemma mem_tags (h : d.Reordered d') (raw : String) : raw ∈ d.tags ↔ raw ∈ d'.tags := by
  obtain ⟨tags, hperm, rfl⟩ := h
  exact hperm.mem_iff

lemma view_eq (h : d.Reordered d') (sourceRoots : List Path) :
    d.view sourceRoots = d'.view sourceRoots := by
  have htags : Sorted.ofList compare (d.tags.map Text.trim) =
      Sorted.ofList compare (d'.tags.map Text.trim) := by
    refine (Sorted.ofList_ascending _).eq_of_mem_iff (Sorted.ofList_ascending _) fun n => ?_
    simp only [Sorted.mem_ofList, List.mem_map, h.mem_tags]
  rw [view, view, htags]
  obtain ⟨tags, -, rfl⟩ := h
  rfl

lemma admissible_iff (h : d.Reordered d') (sourceRoots : List Path) :
    d.Admissible sourceRoots ↔ d'.Admissible sourceRoots := by
  have hnonempty : d.tags ≠ [] ↔ d'.tags ≠ [] := by
    simp only [ne_eq, List.eq_nil_iff_forall_not_mem, h.mem_tags]
  have hnonblank : (∀ raw ∈ d.tags, Text.trim raw ≠ "") ↔ ∀ raw ∈ d'.tags, Text.trim raw ≠ "" := by
    simp only [h.mem_tags]
  obtain ⟨tags, -, rfl⟩ := h
  constructor
  · rintro ⟨htagged, hblank, hbelow, hinterface⟩
    exact ⟨hnonempty.mp htagged, hnonblank.mp hblank, hbelow, hinterface⟩
  · rintro ⟨htagged, hblank, hbelow, hinterface⟩
    exact ⟨hnonempty.mpr htagged, hnonblank.mpr hblank, hbelow, hinterface⟩

end Declaration.Reordered

namespace Reordered

variable {declarations declarations' : List Declaration} (h : Reordered declarations declarations')
  {sourceRoots : List Path} {t t' : PackageTree}

include h

lemma map_perm {γ : Type} {f : Declaration → γ} (hf : ∀ d d', d.Reordered d' → f d = f d') :
    (declarations.map f).Perm (declarations'.map f) := by
  obtain ⟨middle, hrelated, hperm⟩ := h
  rw [map_eq_of_related hrelated hf]
  exact hperm.map f

lemma views_perm (sourceRoots : List Path) :
    (declarations.map (Declaration.view sourceRoots)).Perm
      (declarations'.map (Declaration.view sourceRoots)) :=
  h.map_perm fun _ _ hd => hd.view_eq sourceRoots

lemma exists_build_iff (sourceRoots : List Path) :
    (∃ t, PackageTree.build declarations sourceRoots = .ok t) ↔
      ∃ t, PackageTree.build declarations' sourceRoots = .ok t := by
  have hadmissible : (declarations.map (Declaration.Admissible sourceRoots)).Perm
      (declarations'.map (Declaration.Admissible sourceRoots)) :=
    h.map_perm fun _ _ hd => propext (hd.admissible_iff sourceRoots)
  have hroots : (declarations.map (·.root.normalize)).Perm
      (declarations'.map (·.root.normalize)) := by
    refine h.map_perm ?_
    rintro d _ ⟨tags, -, rfl⟩
    rfl
  have hall : ∀ ds : List Declaration, (∀ d ∈ ds, d.Admissible sourceRoots) ↔
      ∀ holds ∈ ds.map (Declaration.Admissible sourceRoots), holds :=
    fun ds => (List.forall_mem_map (P := fun holds : Prop => holds)).symm
  rw [PackageTree.exists_build_iff, PackageTree.exists_build_iff, hall, hall declarations',
    DistinctRoots, DistinctRoots, (hroots.map Path.components).nodup_iff]
  simp only [hadmissible.mem_iff]

section Trees

variable (hfollows : t.Follows sourceRoots declarations)
  (hfollows' : t'.Follows sourceRoots declarations')

include hfollows hfollows'

lemma mem_names_iff (n : String) : n ∈ t.tags.names ↔ n ∈ t'.tags.names := by
  have hviews : ∀ ds : List Declaration, (∃ d ∈ ds, ∃ raw ∈ d.tags, n = Text.trim raw) ↔
      ∃ v ∈ ds.map (Declaration.view sourceRoots), n ∈ v.tags := by
    intro ds
    simp [Declaration.view, eq_comm]
  rw [hfollows.mem_names, hfollows'.mem_names, hviews, hviews declarations']
  simp only [(h.views_perm sourceRoots).mem_iff]

lemma sameTags : ConstraintSet.SameTags t.tags t'.tags := by
  intro raw
  rw [TagTable.get?_eq_none_iff hfollows.wellFormed,
    TagTable.get?_eq_none_iff hfollows'.wellFormed, h.mem_names_iff hfollows hfollows']

lemma size_eq (ht : t.Represents declarations) (ht' : t'.Represents declarations') :
    t.tags.size = t'.tags.size := by
  have hperm : t.tags.names.Perm t'.tags.names :=
    (List.perm_ext_iff_of_nodup ht.wellFormed.nodup ht'.wellFormed.nodup).mpr
      (h.mem_names_iff hfollows hfollows')
  exact hperm.length_eq

lemma renumbered (ht : t.Represents declarations) (ht' : t'.Represents declarations')
    (hsize : t.tags.size ≤ TagId.last) (hmodules : (t.packages.map (·.module)).Nodup) :
    Renumbered t t' := by
  have hsize' : t'.tags.size ≤ TagId.last := h.size_eq hfollows hfollows' ht ht' ▸ hsize
  have hviews : (t.packages.map t.view).Perm (t'.packages.map t'.view) := by
    rw [PackageTree.map_view ht hfollows hsize, PackageTree.map_view ht' hfollows' hsize']
    exact h.views_perm sourceRoots
  have hmodules' : (t'.packages.map (·.module)).Nodup := by
    have hperm := hviews.map PackageView.module
    rw [List.map_map, List.map_map] at hperm
    exact hperm.nodup_iff.mp hmodules
  have hdistinguishes : ∀ {t : PackageTree} {ds : List Declaration}, t.Represents ds →
      t.Follows sourceRoots ds → (t.packages.map (·.module)).Nodup → t.Distinguishes :=
    fun ht hfollows hmodules => ⟨fun p hp => ht.get?_id hp,
      fun p hp q hq => hfollows.eq_of_root hp hq,
      fun p hp q hq => List.inj_on_of_nodup_map hmodules hp hq⟩
  exact ⟨hdistinguishes ht hfollows hmodules, hdistinguishes ht' hfollows' hmodules', hviews⟩

end Trees

end Reordered

/-- Findings do not depend on the order of declarations, nor on that of the tags inside them.
Reordered declarations build if the others do; constraints are then accepted or rejected alike, a
check finds the same violations, and a synchronisation gives the same patch. -/
theorem findings_reordered {declarations declarations' : List Declaration}
    (h : Reordered declarations declarations') (sourceRoots : List Path) :
    ((∃ t, PackageTree.build declarations sourceRoots = .ok t) ↔
      ∃ t', PackageTree.build declarations' sourceRoots = .ok t') ∧
    ∀ t t', PackageTree.build declarations sourceRoots = .ok t →
      PackageTree.build declarations' sourceRoots = .ok t' →
      t.tags.size ≤ TagId.last → (t.packages.map (·.module)).Nodup →
      ∀ (constraints : List Constraint) (o : GraphOptions) (files : List SourceFile),
        ((∃ set set' found found',
            ConstraintSet.ofConstraints constraints t.tags = .ok set ∧
            ConstraintSet.ofConstraints constraints t'.tags = .ok set' ∧
            check ({ o with tree := t }.build files) t set = .ok found ∧
            check ({ o with tree := t' }.build files) t' set' = .ok found' ∧
            (found.map Violation.finding).Perm (found'.map Violation.finding)) ∨
          ∃ raw place,
            ConstraintSet.ofConstraints constraints t.tags = .error (.unknownTag raw place) ∧
            ConstraintSet.ofConstraints constraints t'.tags = .error (.unknownTag raw place)) ∧
        ∀ prune, ∃ patch,
          sync ({ o with tree := t }.build files) t constraints prune = .ok patch ∧
          sync ({ o with tree := t' }.build files) t' constraints prune = .ok patch := by
  refine ⟨h.exists_build_iff sourceRoots, ?_⟩
  intro t t' hbuild hbuild' hsize hmodules constraints o files
  have ht := PackageTree.build_represents hbuild
  have ht' := PackageTree.build_represents hbuild'
  have hfollows := PackageTree.build_follows hbuild
  have hfollows' := PackageTree.build_follows hbuild'
  have hsize' : t'.tags.size ≤ TagId.last := h.size_eq hfollows hfollows' ht ht' ▸ hsize
  have hrenumbered := h.renumbered hfollows hfollows' ht ht' hsize hmodules
  refine ⟨?_, hrenumbered.sync_eq ht ht' o files constraints⟩
  rcases ConstraintSet.ofConstraints_congr (h.sameTags hfollows hfollows') constraints with
    ⟨set, set', hset, hset'⟩ | hunknown
  · obtain ⟨found, found', hcheck, hcheck', hperm⟩ :=
      hrenumbered.check_perm ht ht' o files hsize hsize' hset hset'
    exact Or.inl ⟨set, set', found, found', hset, hset', hcheck, hcheck', hperm⟩
  · exact Or.inr hunknown

namespace Sample

/-- The packages the other way round, and the tags of `core` too. -/
def reordered : List Declaration :=
  [⟨⟨"./db"⟩, ["db "], true, some ["Session"]⟩, ⟨⟨"core"⟩, ["app", " core"], false, none⟩]

def reorderedTree : PackageTree where
  packages :=
    [⟨0, ⟨"db"⟩, "db", ⟨[0]⟩, true, some ["Session"]⟩,
      ⟨1, ⟨"core"⟩, "core", ⟨[1, 2]⟩, false, none⟩]
  tags := ⟨["db", "app", "core"], [("core", 2), ("app", 1), ("db", 0)]⟩

lemma declarations_reordered : Reordered declarations reordered :=
  ⟨reordered.reverse,
    .cons ⟨_, List.Perm.swap "app" " core" [], rfl⟩ (.cons ⟨_, List.Perm.refl _, rfl⟩ .nil),
    List.reverse_perm _⟩

end Sample

theorem findings_reordered_sample :
    Reordered Sample.declarations Sample.reordered ∧
    PackageTree.build Sample.declarations [⟨"."⟩] = .ok Sample.tree ∧
    PackageTree.build Sample.reordered [⟨"."⟩] = .ok Sample.reorderedTree ∧
    (∃ set' found found',
      ConstraintSet.ofConstraints Sample.constraints Sample.reorderedTree.tags = .ok set' ∧
      check (Sample.options.build Sample.files) Sample.tree Sample.set = .ok found ∧
      check ({ Sample.options with tree := Sample.reorderedTree }.build Sample.files)
        Sample.reorderedTree set' = .ok found' ∧
      (found.map Violation.finding).Perm (found'.map Violation.finding)) ∧
    ∀ prune, sync (Sample.options.build Sample.files) Sample.tree Sample.constraints prune =
      sync ({ Sample.options with tree := Sample.reorderedTree }.build Sample.files)
        Sample.reorderedTree Sample.constraints prune := by
  have hbuild : PackageTree.build Sample.reordered [⟨"."⟩] = .ok Sample.reorderedTree := by
    decide +kernel
  obtain ⟨hfindings, hsync⟩ := (findings_reordered Sample.declarations_reordered [⟨"."⟩]).2
    Sample.tree Sample.reorderedTree Sample.build_eq hbuild Sample.size_le (by decide)
    Sample.constraints Sample.options Sample.files
  refine ⟨Sample.declarations_reordered, Sample.build_eq, hbuild, ?_, ?_⟩
  · rcases hfindings with ⟨set, set', found, found', hset, hset', hcheck, hcheck', hperm⟩ | hunknown
    · rw [Sample.ofConstraints_eq] at hset
      cases hset
      exact ⟨set', found, found', hset', hcheck, hcheck', hperm⟩
    · obtain ⟨raw, place, hunknown, -⟩ := hunknown
      rw [Sample.ofConstraints_eq] at hunknown
      cases hunknown
  · intro prune
    obtain ⟨patch, hpatch, hpatch'⟩ := hsync prune
    exact hpatch.trans hpatch'.symm

end ImportFence
