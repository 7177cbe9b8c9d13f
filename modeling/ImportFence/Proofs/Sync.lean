import ImportFence.Proofs.Check
import ImportFence.Proofs.ConfigEdit

/-!
# Synchronising is exact and converges

The patch between declared and observed pairs adds what is observed but not declared and, if it
prunes, drops what is declared but not observed. Since the names of a tree's tags are trimmed, the
patched configuration declares exactly the pairs that the patch aims at: a second synchronisation
finds nothing to change, and applying the patch again changes nothing.
-/

namespace ImportFence
open Traversal

/-- A pair of tag names stands between the two packages of some edge that counts. -/
def Observed (graph : Graph) (tree : PackageTree) (p : TagPair) : Prop :=
  ∃ e ∈ graph.activeEdges, ∃ source ∈ tree.get? e.fromPackage, ∃ target ∈ tree.get? e.toPackage,
    ∃ s ∈ source.tags.ids, ∃ a ∈ target.tags.ids, p = ⟨tree.tags.name s, tree.tags.name a⟩

section Observations

variable {graph : Graph} {tree : PackageTree} {declarations : List Declaration}

lemma observedPairs_eq_passOver (graph : Graph) (tree : PackageTree) :
    observedPairs graph tree = do
      let pairs ← tree.passOver (fun _ source target => tree.tags.pairs source.tags target.tags)
        graph.activeEdges
      return pairs.flatten := rfl

lemma observedPairs_eq_ok (h : graph.activeEdges.findSome? tree.missing? = none) :
    observedPairs graph tree = .ok (graph.activeEdges.flatMap
      (tree.seen fun _ source target => tree.tags.pairs source.tags target.tags)) := by
  rw [observedPairs_eq_passOver, PackageTree.passOver_eq_ok h, List.flatMap_def]
  rfl

lemma missing?_of_observedPairs_ok {observed : List TagPair}
    (h : observedPairs graph tree = .ok observed) :
    graph.activeEdges.findSome? tree.missing? = none := by
  rw [observedPairs_eq_passOver] at h
  obtain ⟨pairs, hpairs, -⟩ := bind_eq_ok_iff.mp h
  exact PackageTree.findSome?_missing?_of_passOver_ok hpairs

lemma mem_seen_pairs {e : Edge} {p : TagPair} :
    p ∈ tree.seen (fun _ source target => tree.tags.pairs source.tags target.tags) e ↔
      ∃ source ∈ tree.get? e.fromPackage, ∃ target ∈ tree.get? e.toPackage,
        ∃ s ∈ source.tags.ids, ∃ a ∈ target.tags.ids,
          p = ⟨tree.tags.name s, tree.tags.name a⟩ := by
  cases hends : tree.ends e with
  | ok pair =>
    obtain ⟨source, target⟩ := pair
    obtain ⟨hsource, htarget⟩ := PackageTree.ends_eq_ok_iff.mp hends
    rw [PackageTree.seen_of_ends hends, hsource, htarget]
    simp [TagTable.pairs, eq_comm]
  | error err =>
    rw [PackageTree.seen, hends]
    constructor
    · intro h
      cases h
    · rintro ⟨source, hsource, target, htarget, -⟩
      have hok := PackageTree.ends_eq_ok_iff.mpr ⟨hsource, htarget⟩
      rw [hends] at hok
      cases hok

lemma mem_observedPairs {observed : List TagPair} (h : observedPairs graph tree = .ok observed)
    (p : TagPair) : p ∈ observed ↔ Observed graph tree p := by
  rw [observedPairs_eq_ok (missing?_of_observedPairs_ok h)] at h
  cases h
  simp only [List.mem_flatMap, mem_seen_pairs, Observed]

lemma Observed.mem_names (ht : tree.Represents declarations) {p : TagPair}
    (h : Observed graph tree p) : p.source ∈ tree.tags.names ∧ p.allowed ∈ tree.tags.names := by
  have hname : ∀ {id : PackageId} {q : Package} {tag : TagId}, q ∈ tree.get? id →
      tag ∈ q.tags.ids → tree.tags.name tag ∈ tree.tags.names := by
    intro id q tag hq htag
    obtain ⟨d, -, hd⟩ := ht.exists_declaration hq
    obtain ⟨raw, -, hraw⟩ := (hd.mem_tags tag).mp htag
    exact (TagTable.name_of_get? ht.wellFormed hraw).1
  obtain ⟨e, -, source, hsource, target, htarget, s, hs, a, ha, rfl⟩ := h
  exact ⟨hname hsource hs, hname htarget ha⟩

lemma Observed.trimmed (ht : tree.Represents declarations) {p : TagPair}
    (h : Observed graph tree p) : p.trimmed = p := by
  obtain ⟨hsource, hallowed⟩ := h.mem_names ht
  rw [TagPair.trimmed, ht.wellFormed.trimmed _ hsource, ht.wellFormed.trimmed _ hallowed]

end Observations

lemma trimmed_of_mem_declaredPairs {constraints : List Constraint} {p : TagPair}
    (h : p ∈ declaredPairs constraints) : p.trimmed = p := by
  obtain ⟨c, -, d, -, rfl⟩ := mem_declaredPairs.mp h
  simp [TagPair.trimmed]

/-! ### The patch -/

section Sync

variable {graph : Graph} {tree : PackageTree} {declarations : List Declaration}
  {constraints : List Constraint} {prune : Bool} {patch : Patch}

lemma sync_eq_ok (h : graph.activeEdges.findSome? tree.missing? = none)
    (constraints : List Constraint) (prune : Bool) :
    ∃ patch, sync graph tree constraints prune = .ok patch := by
  rw [sync, observedPairs_eq_ok h]
  exact ⟨_, rfl⟩

/-- A synchronisation that succeeds looks at known packages only, and its patch is the sorted
difference of the two sets of pairs, in both directions if it prunes. -/
lemma sync_ok (h : sync graph tree constraints prune = .ok patch) :
    graph.activeEdges.findSome? tree.missing? = none ∧
    (∀ p, p ∈ patch.additions ↔ Observed graph tree p ∧ p ∉ declaredPairs constraints) ∧
    (∀ p, p ∈ patch.prunes ↔
      prune = true ∧ p ∈ declaredPairs constraints ∧ ¬ Observed graph tree p) ∧
    Sorted.Ascending TagPair.compare patch.additions ∧
    Sorted.Ascending TagPair.compare patch.prunes := by
  rw [sync] at h
  obtain ⟨observed, hobserved, hpatch⟩ := bind_eq_ok_iff.mp h
  cases hpatch
  have hmem := mem_observedPairs hobserved
  refine ⟨missing?_of_observedPairs_ok hobserved, ?_, ?_, Sorted.ofList_ascending _, ?_⟩
  · intro p
    simp [hmem p]
  · intro p
    cases prune <;> simp [hmem p]
  · cases prune
    · exact List.Pairwise.nil
    · exact Sorted.ofList_ascending _

lemma mem_declaredPairs_edit_sync (ht : tree.Represents declarations)
    (h : sync graph tree constraints prune = .ok patch) (p : TagPair) :
    p ∈ declaredPairs (patch.edit constraints) ↔
      Observed graph tree p ∨ (prune = false ∧ p ∈ declaredPairs constraints) := by
  obtain ⟨-, hadditions, hprunes, -, -⟩ := sync_ok h
  have hadd : (∃ t ∈ patch.additions, p = t.trimmed) ↔ p ∈ patch.additions := by
    constructor
    · rintro ⟨t, ht', rfl⟩
      rw [((hadditions t).mp ht').1.trimmed ht]
      exact ht'
    · intro hp
      exact ⟨p, hp, (((hadditions p).mp hp).1.trimmed ht).symm⟩
  have hprune : (∀ t ∈ patch.prunes, p ≠ t.trimmed) ↔ p ∉ patch.prunes := by
    constructor
    · intro hne hp
      exact hne p hp (trimmed_of_mem_declaredPairs ((hprunes p).mp hp).2.1).symm
    · rintro hp t ht' rfl
      rw [trimmed_of_mem_declaredPairs ((hprunes t).mp ht').2.1] at hp
      exact hp ht'
  rw [Patch.mem_declaredPairs_edit, hadd, hprune, hadditions, hprunes]
  by_cases hobserved : Observed graph tree p
  · by_cases hdeclared : p ∈ declaredPairs constraints <;> simp [hobserved, hdeclared]
  · cases prune <;> simp [hobserved]

/-- Synchronising is exact and converges in one pass. -/
theorem sync_converges {sourceRoots : List Path} {c : Config}
    (hbuild : PackageTree.build declarations sourceRoots = .ok tree)
    (hsync : sync graph tree c.constraints prune = .ok patch) :
    (∀ p, p ∈ patch.additions ↔ Observed graph tree p ∧ p ∉ declaredPairs c.constraints) ∧
    (∀ p, p ∈ patch.prunes ↔
      prune = true ∧ p ∈ declaredPairs c.constraints ∧ ¬ Observed graph tree p) ∧
    Sorted.Ascending TagPair.compare patch.additions ∧
    Sorted.Ascending TagPair.compare patch.prunes ∧
    (∀ p, p ∈ declaredPairs (patch.apply c).constraints ↔
      Observed graph tree p ∨ (prune = false ∧ p ∈ declaredPairs c.constraints)) ∧
    sync graph tree (patch.apply c).constraints prune = .ok ⟨[], []⟩ ∧
    patch.apply (patch.apply c) = patch.apply c := by
  have ht := PackageTree.build_represents hbuild
  obtain ⟨hknown, hadditions, hprunes, hasc, hasc'⟩ := sync_ok hsync
  have hdeclared := mem_declaredPairs_edit_sync ht hsync
  simp only [Patch.apply_eq]
  refine ⟨hadditions, hprunes, hasc, hasc', hdeclared, ?_, ?_⟩
  · obtain ⟨⟨additions, prunes⟩, hagain⟩ := sync_eq_ok hknown (patch.edit c.constraints) prune
    obtain ⟨-, hadditions', hprunes', -, -⟩ := sync_ok hagain
    have hnone : additions = [] := by
      rw [List.eq_nil_iff_forall_not_mem]
      intro p hp
      obtain ⟨hobserved, hnot⟩ := (hadditions' p).mp hp
      exact hnot ((hdeclared p).mpr (Or.inl hobserved))
    have hnone' : prunes = [] := by
      rw [List.eq_nil_iff_forall_not_mem]
      intro p hp
      obtain ⟨hprune, hmem, hnot⟩ := (hprunes' p).mp hp
      rcases (hdeclared p).mp hmem with hobserved | ⟨hkeep, -⟩
      · exact hnot hobserved
      · rw [hprune] at hkeep
        cases hkeep
    rw [hagain, hnone, hnone']
  · congr 1
    apply Patch.edit_edit
    -- additions are observed, removals are not
    intro t ht' u hu heq
    have hobserved := ((hadditions t).mp ht').1
    obtain ⟨-, hmem, hnot⟩ := (hprunes u).mp hu
    rw [hobserved.trimmed ht, trimmed_of_mem_declaredPairs hmem] at heq
    exact hnot (heq ▸ hobserved)

end Sync

namespace Sample

/-- Two entries for one tag, differently padded, and a tag that no package carries. -/
def config : Config :=
  { Config.default with constraints := [⟨" core", ["db", " stale "]⟩, ⟨"core ", ["app"]⟩] }

def patch : Patch where
  additions := [⟨"app", "db"⟩, ⟨"db", "app"⟩, ⟨"db", "core"⟩]
  prunes := [⟨"core", "app"⟩, ⟨"core", "stale"⟩]

lemma sync_eq : sync graph tree config.constraints true = .ok patch := by decide +kernel

end Sample

theorem sync_converges_sample :
    PackageTree.build Sample.declarations [⟨"."⟩] = .ok Sample.tree ∧
    sync Sample.graph Sample.tree Sample.config.constraints true = .ok Sample.patch ∧
    (∀ p, p ∈ declaredPairs (Sample.patch.apply Sample.config).constraints ↔
      Observed Sample.graph Sample.tree p) ∧
    sync Sample.graph Sample.tree (Sample.patch.apply Sample.config).constraints true =
      .ok ⟨[], []⟩ ∧
    Sample.patch.apply (Sample.patch.apply Sample.config) = Sample.patch.apply Sample.config := by
  obtain ⟨-, -, -, -, hdeclared, hagain, htwice⟩ := sync_converges Sample.build_eq Sample.sync_eq
  exact ⟨Sample.build_eq, Sample.sync_eq, fun p => by simpa using hdeclared p, hagain, htwice⟩

end ImportFence
