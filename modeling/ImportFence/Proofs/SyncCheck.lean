import ImportFence.Proofs.Declarations
import ImportFence.Proofs.Sync

/-!
# Checking after synchronising

A configuration that has been synchronised with the imports declares every pair that an edge needs,
so a check with it finds no undeclared dependency. Violations of strict interfaces do not depend on
constraints at all, and a valid configuration stays valid. Pruning drops every dependency on a tag
that no package carries, so that only the own tag of a constraint can still keep a check from
starting.
-/

namespace ImportFence
open Traversal

section Clean

variable {graph : Graph} {tree : PackageTree} {declarations : List Declaration}
  {constraints : List Constraint} {set : ConstraintSet}

lemma permits_of_observed_declared (ht : tree.Represents declarations)
    (hset : ConstraintSet.ofConstraints constraints tree.tags = .ok set)
    (hall : ∀ p, Observed graph tree p → p ∈ declaredPairs constraints)
    {e : Edge} (he : e ∈ graph.activeEdges) {source target : Package}
    (hends : tree.ends e = .ok (source, target)) :
    set.permits source.tags target.tags = true := by
  obtain ⟨hsource, htarget⟩ := PackageTree.ends_eq_ok_iff.mp hends
  obtain ⟨ds, -, hds⟩ := ht.exists_declaration hsource
  obtain ⟨dt, -, hdt⟩ := ht.exists_declaration htarget
  -- any tag of either package will do: every pair between the two is observed
  obtain ⟨s, hs⟩ := hds.exists_tag
  obtain ⟨a, ha⟩ := hdt.exists_tag
  have hpair := hall _ ⟨e, he, source, hsource, target, htarget, s, hs, a, ha, rfl⟩
  obtain ⟨c, hc, d, hd, heq⟩ := mem_declaredPairs.mp hpair
  obtain ⟨hcs, hda⟩ := TagPair.mk.inj heq
  -- a declared name that is the name of a number has that number
  have hnumber : ∀ {q : Package} {dq : Declaration} {tag : TagId} {raw : String},
      q.Represents tree.tags dq → tag ∈ q.tags.ids → tree.tags.name tag = Text.trim raw →
        tree.tags.get? raw = some tag := by
    intro q dq tag raw hq htag hname
    obtain ⟨raw', -, hraw'⟩ := (hq.mem_tags tag).mp htag
    rw [← (TagTable.name_of_get? ht.wellFormed hraw').2, hname]
    exact TagTable.get?_congr (Text.trim_trim raw).symm
  rw [ConstraintSet.permits_iff hdt.ascending]
  exact ⟨s, hs, a, ha, (ConstraintSet.mem_of_ofConstraints hset s a).mpr
    ⟨c, hc, d, hd, hnumber hds hs hcs, hnumber hdt ha hda⟩⟩

lemma seen_filter_strict (set other : ConstraintSet) (e : Edge) :
    (tree.seen (Edge.violations tree set) e).filter (·.kind = .strictInterface) =
      (tree.seen (Edge.violations tree other) e).filter (·.kind = .strictInterface) := by
  cases hends : tree.ends e with
  | error err => rw [PackageTree.seen, PackageTree.seen, hends]
  | ok pair =>
    rw [PackageTree.seen_of_ends hends, PackageTree.seen_of_ends hends,
      violations_strict, violations_strict]

end Clean

namespace Config

/-- No tag of some constraints is blank. -/
def NoBlanks (constraints : List Constraint) : Prop :=
  ∀ c ∈ constraints, Text.trim c.tag ≠ "" ∧ ∀ d ∈ c.dependsOn, Text.trim d ≠ ""

lemma blankTag?_eq_none_iff {constraints : List Constraint} (i : Nat) :
    blankTag? i constraints = none ↔ NoBlanks constraints := by
  induction constraints generalizing i with
  | nil => simp [blankTag?, NoBlanks]
  | cons c cs ih =>
    rw [NoBlanks, List.forall_mem_cons, ← NoBlanks, ← ih (i + 1), blankTag?]
    by_cases htag : Text.trim c.tag = ""
    · simp [htag]
    · rw [if_neg htag]
      cases hdep : c.dependsOn.findIdx? (Text.trim · = "") with
      | some j =>
        have hexists : ∃ d ∈ c.dependsOn, Text.trim d = "" := by
          have hsome : (c.dependsOn.findIdx? (Text.trim · = "")).isSome := by simp [hdep]
          simpa using hsome
        obtain ⟨d, hd, hblank⟩ := hexists
        constructor
        · intro h
          cases h
        · rintro ⟨⟨-, hdeps⟩, -⟩
          exact absurd hblank (hdeps d hd)
      | none =>
        have hdeps : ∀ d ∈ c.dependsOn, Text.trim d ≠ "" := by
          simpa using hdep
        simp only [htag, ne_eq, not_false_eq_true, true_and]
        exact ⟨fun h => ⟨hdeps, h⟩, fun h => h.2⟩

lemma validate_ok_iff {c : Config} :
    c.validate = .ok () ↔
      c.sourceRoots ≠ [] ∧ (∃ patterns, c.excludePatterns = .ok patterns) ∧
        NoBlanks c.constraints := by
  rw [← blankTag?_eq_none_iff 0]
  simp only [validate, bind, Except.bind]
  by_cases hroots : c.sourceRoots = []
  · simp [hroots, throw, throwThe, MonadExceptOf.throw]
  · rw [if_neg (by simpa using hroots)]
    cases c.excludePatterns with
    | error e => simp
    | ok patterns =>
      cases blankTag? 0 c.constraints <;>
        simp [hroots, throw, throwThe, MonadExceptOf.throw, pure, Except.pure]

lemma NoBlanks.addAll {tag dep : String} (htag : Text.trim tag ≠ "") (hdep : Text.trim dep ≠ "")
    {cs : List Constraint} (h : NoBlanks cs) : NoBlanks (Constraint.addAll tag [dep] cs) := by
  have hextend : ∀ {tags : List String}, (∀ d ∈ tags, Text.trim d ≠ "") →
      ∀ d ∈ Constraint.extend tags [dep], Text.trim d ≠ "" := by
    intro tags htags d hd
    have hmem := (Constraint.mem_map_trim_extend [dep] tags).mp (List.mem_map_of_mem hd)
    rcases hmem with hmem | hmem
    · obtain ⟨d', hd', heq⟩ := List.mem_map.mp hmem
      exact heq ▸ htags d' hd'
    · rw [List.mem_singleton.mp hmem]
      exact hdep
  induction cs with
  | nil =>
    rw [Constraint.addAll, NoBlanks, List.forall_mem_singleton, Text.trim_trim]
    exact ⟨htag, hextend (List.forall_mem_nil _)⟩
  | cons c cs ih =>
    obtain ⟨hc, hcs⟩ := List.forall_mem_cons.mp h
    rw [Constraint.addAll]
    split
    · exact List.forall_mem_cons.mpr ⟨⟨hc.1, hextend hc.2⟩, hcs⟩
    · exact List.forall_mem_cons.mpr ⟨hc, ih hcs⟩

lemma NoBlanks.remove {tag dep : String} {cs : List Constraint} (h : NoBlanks cs) :
    NoBlanks (Constraint.remove tag dep cs) := by
  intro c hc
  obtain ⟨c', hc', rfl⟩ := List.mem_map.mp hc
  obtain ⟨htag, hdeps⟩ := h c' hc'
  split
  · exact ⟨htag, fun d hd => hdeps d (List.mem_of_mem_filter hd)⟩
  · exact ⟨htag, hdeps⟩

lemma NoBlanks.addPairs {ts : List TagPair}
    (hts : ∀ t ∈ ts, Text.trim t.source ≠ "" ∧ Text.trim t.allowed ≠ "") {cs : List Constraint}
    (h : NoBlanks cs) : NoBlanks (Constraint.addPairs ts cs) := by
  induction ts generalizing cs with
  | nil => exact h
  | cons t ts ih =>
    obtain ⟨ht, hts⟩ := List.forall_mem_cons.mp hts
    exact ih hts (h.addAll ht.1 ht.2)

lemma NoBlanks.removePairs {ts : List TagPair} {cs : List Constraint} (h : NoBlanks cs) :
    NoBlanks (Constraint.removePairs ts cs) := by
  induction ts generalizing cs with
  | nil => exact h
  | cons t ts ih => exact ih h.remove

lemma NoBlanks.edit {p : Patch}
    (hp : ∀ t ∈ p.additions, Text.trim t.source ≠ "" ∧ Text.trim t.allowed ≠ "")
    {cs : List Constraint} (h : NoBlanks cs) : NoBlanks (p.edit cs) :=
  (h.addPairs hp).removePairs

end Config

section Clean

variable {graph : Graph} {tree : PackageTree} {declarations : List Declaration}

/-- After synchronising, no dependency is undeclared. The violations of strict interfaces are those
under any constraints, only the constraints change, and a valid configuration stays valid. -/
theorem check_clean_after_sync {sourceRoots : List Path} {c : Config} {prune : Bool}
    {patch : Patch} (hbuild : PackageTree.build declarations sourceRoots = .ok tree)
    (hsync : sync graph tree c.constraints prune = .ok patch) :
    (∀ set, ConstraintSet.ofConstraints (patch.apply c).constraints tree.tags = .ok set →
      ∃ found, check graph tree set = .ok found ∧
        (∀ v ∈ found, v.kind ≠ .undeclaredDependency) ∧
        ∀ other, ∃ found', check graph tree other = .ok found' ∧
          found'.filter (·.kind = .strictInterface) =
            found.filter (·.kind = .strictInterface)) ∧
    patch.apply c = { c with constraints := (patch.apply c).constraints } ∧
    (c.validate = .ok () → (patch.apply c).validate = .ok ()) := by
  have ht := PackageTree.build_represents hbuild
  obtain ⟨hknown, hadditions, -, -, -⟩ := sync_ok hsync
  have hdeclared := mem_declaredPairs_edit_sync ht hsync
  simp only [Patch.apply_eq]
  refine ⟨?_, trivial, ?_⟩
  · intro set hset
    refine ⟨_, check_eq_ok set hknown, ?_, ?_⟩
    · intro v hv hkind
      obtain ⟨e, he, hve⟩ := List.mem_flatMap.mp ((Sorted.sort_perm _ _).mem_iff.mp hv)
      obtain ⟨source, target, hends⟩ := PackageTree.exists_ends hknown he
      have hpermits := permits_of_observed_declared ht hset
        (fun p hp => (hdeclared p).mpr (Or.inl hp)) he hends
      have hnone := violations_undeclared tree set e source target
      rw [if_pos hpermits, List.filter_eq_nil_iff] at hnone
      rw [PackageTree.seen_of_ends hends] at hve
      exact hnone v hve (by simpa using hkind)
    · intro other
      refine ⟨_, check_eq_ok other hknown, ?_⟩
      -- sorting is stable, so the strict violations keep their order whatever stands between them
      rw [Sorted.filter_sort, Sorted.filter_sort, List.filter_flatMap, List.filter_flatMap]
      simp only [seen_filter_strict other set]
  · intro hvalid
    obtain ⟨hroots, hpatterns, hblanks⟩ := Config.validate_ok_iff.mp hvalid
    refine Config.validate_ok_iff.mpr ⟨hroots, hpatterns, hblanks.edit ?_⟩
    intro t ht'
    have hobserved := ((hadditions t).mp ht').1
    obtain ⟨hsource, hallowed⟩ := hobserved.mem_names ht
    rw [ht.wellFormed.trimmed _ hsource, ht.wellFormed.trimmed _ hallowed]
    exact ⟨ht.wellFormed.nonblank _ hsource, ht.wellFormed.nonblank _ hallowed⟩

end Clean

theorem check_clean_after_sync_sample :
    PackageTree.build Sample.declarations [⟨"."⟩] = .ok Sample.tree ∧
    sync Sample.graph Sample.tree Sample.config.constraints true = .ok Sample.patch ∧
    Sample.config.validate = .ok () ∧ (Sample.patch.apply Sample.config).validate = .ok () ∧
    ∃ set found, ConstraintSet.ofConstraints (Sample.patch.apply Sample.config).constraints
        Sample.tree.tags = .ok set ∧ check Sample.graph Sample.tree set = .ok found ∧
      ∀ v ∈ found, v.kind ≠ .undeclaredDependency := by
  obtain ⟨hclean, -, hvalid⟩ := check_clean_after_sync Sample.build_eq Sample.sync_eq
  have hconfig : Sample.config.validate = .ok () := by decide +kernel
  have hset : ConstraintSet.ofConstraints (Sample.patch.apply Sample.config).constraints
      Sample.tree.tags = .ok ⟨[(2, ⟨[0, 1]⟩), (1, ⟨[2]⟩), (0, ⟨[2]⟩)]⟩ := by
    decide +kernel
  obtain ⟨found, hfound, hnone, -⟩ := hclean _ hset
  exact ⟨Sample.build_eq, Sample.sync_eq, hconfig, hvalid hconfig, _, found, hset, hfound, hnone⟩

/-! ### Which constraints are accepted -/

section Acceptance

variable {graph : Graph} {tree : PackageTree} {declarations : List Declaration}
  {sourceRoots : List Path}

lemma PackageTree.mem_names_iff_carried
    (hbuild : PackageTree.build declarations sourceRoots = .ok tree) {n : String} :
    n ∈ tree.tags.names ↔ ∃ p ∈ tree.packages, n ∈ tagNames declarations p.id := by
  have ht := PackageTree.build_represents hbuild
  rw [(PackageTree.build_follows hbuild).mem_names]
  constructor
  · rintro ⟨d, hd, raw, hraw, rfl⟩
    obtain ⟨k, hk, hget⟩ := List.getElem_of_mem hd
    have hpackage := List.getElem?_eq_getElem (ht.length_eq ▸ hk)
    refine ⟨_, List.mem_of_getElem? hpackage, ?_⟩
    rw [ht.id_eq k _ hpackage, tagNames, List.getElem?_eq_getElem hk, hget]
    exact List.mem_map_of_mem hraw
  · rintro ⟨p, hp, hn⟩
    obtain ⟨d, hd, -⟩ := ht.exists_declaration (ht.get?_id hp)
    rw [tagNames, hd] at hn
    obtain ⟨raw, hraw, rfl⟩ := List.mem_map.mp hn
    exact ⟨d, List.mem_of_getElem? hd, raw, hraw, rfl⟩

lemma forall_known_iff {tags : TagTable} {constraints : List Constraint} :
    (∀ c ∈ constraints, Text.trim c.tag ∈ tags.names ∧
      ∀ d ∈ c.dependsOn, Text.trim d ∈ tags.names) ↔
    (∀ tag ∈ constraints.map (·.tag), Text.trim tag ∈ tags.names) ∧
      ∀ p ∈ declaredPairs constraints, p.allowed ∈ tags.names := by
  constructor
  · intro h
    constructor
    · intro tag htag
      obtain ⟨c, hc, rfl⟩ := List.mem_map.mp htag
      exact (h c hc).1
    · intro p hp
      obtain ⟨c, hc, d, hd, rfl⟩ := mem_declaredPairs.mp hp
      exact (h c hc).2 d hd
  · rintro ⟨htags, hpairs⟩ c hc
    exact ⟨htags _ (List.mem_map_of_mem hc), fun d hd =>
      hpairs ⟨Text.trim c.tag, Text.trim d⟩ (mem_declaredPairs.mpr ⟨c, hc, d, hd, rfl⟩)⟩

/-- Which synchronised constraints a check accepts: after pruning those whose own tags packages
carry, whatever their dependencies were before, and without pruning those it accepted before. -/
theorem accepted_after_sync {c : Config} {prune : Bool} {patch : Patch}
    (hbuild : PackageTree.build declarations sourceRoots = .ok tree)
    (hsync : sync graph tree c.constraints prune = .ok patch) :
    (prune = true →
      ((∃ set, ConstraintSet.ofConstraints (patch.apply c).constraints tree.tags = .ok set) ↔
        ∀ k ∈ c.constraints, ∃ p ∈ tree.packages, Text.trim k.tag ∈ tagNames declarations p.id) ∧
      ∀ e, ConstraintSet.ofConstraints (patch.apply c).constraints tree.tags = .error e →
        ∃ i k, c.constraints[i]? = some k ∧ e = .unknownTag k.tag (.constraintTag i)) ∧
    (prune = false →
      ((∃ set, ConstraintSet.ofConstraints (patch.apply c).constraints tree.tags = .ok set) ↔
        ∃ set, ConstraintSet.ofConstraints c.constraints tree.tags = .ok set)) := by
  have ht := PackageTree.build_represents hbuild
  have hdeclared := mem_declaredPairs_edit_sync ht hsync
  obtain ⟨-, hadditions, -, -, -⟩ := sync_ok hsync
  obtain ⟨new, htags, hsources⟩ := patch.map_tag_edit c.constraints
  -- what a patch brings in is observed, and so known
  have hnew : ∀ tag ∈ new, Text.trim tag ∈ tree.tags.names := by
    intro tag htag
    obtain ⟨t, ht', rfl⟩ := hsources tag htag
    have hsource := (((hadditions t).mp ht').1.mem_names ht).1
    rwa [Text.trim_trim, ht.wellFormed.trimmed _ hsource]
  have hedited : (∀ tag ∈ (patch.edit c.constraints).map (·.tag),
      Text.trim tag ∈ tree.tags.names) ↔
        ∀ tag ∈ c.constraints.map (·.tag), Text.trim tag ∈ tree.tags.names := by
    rw [htags, List.forall_mem_append]
    exact and_iff_left hnew
  simp only [Patch.apply_eq]
  constructor
  · rintro rfl
    have hallowed : ∀ p ∈ declaredPairs (patch.edit c.constraints),
        p.allowed ∈ tree.tags.names := by
      intro p hp
      rcases (hdeclared p).mp hp with hobserved | ⟨hkeep, -⟩
      · exact (hobserved.mem_names ht).2
      · cases hkeep
    constructor
    · rw [ConstraintSet.exists_ofConstraints_iff ht.wellFormed, forall_known_iff, hedited,
        and_iff_left hallowed, List.forall_mem_map]
      simp only [PackageTree.mem_names_iff_carried hbuild]
    · intro e he
      obtain ⟨i, k, hi, ⟨hunknown, rfl⟩ | ⟨j, d, hj, hunknown, -⟩⟩ :=
        ConstraintSet.ofConstraints_eq_error ht.wellFormed he
      · have htag : (c.constraints.map (·.tag) ++ new)[i]? = some k.tag := by
          rw [← htags, List.getElem?_map, hi]
          rfl
        rcases lt_or_ge i c.constraints.length with hlt | hge
        · rw [List.getElem?_append_left (by simpa using hlt), List.getElem?_map,
            Option.map_eq_some_iff] at htag
          obtain ⟨k', hk', heq⟩ := htag
          exact ⟨i, k', hk', by rw [heq]⟩
        · rw [List.getElem?_append_right (by simpa using hge)] at htag
          exact absurd (hnew _ (List.mem_of_getElem? htag)) hunknown
      · have hpair := mem_declaredPairs.mpr
          ⟨k, List.mem_of_getElem? hi, d, List.mem_of_getElem? hj, rfl⟩
        exact absurd (hallowed _ hpair) hunknown
  · rintro rfl
    rw [ConstraintSet.exists_ofConstraints_iff ht.wellFormed,
      ConstraintSet.exists_ofConstraints_iff ht.wellFormed, forall_known_iff, forall_known_iff,
      hedited]
    refine and_congr_right fun _ => ⟨?_, ?_⟩
    · intro h p hp
      exact h p ((hdeclared p).mpr (Or.inr ⟨rfl, hp⟩))
    · intro h p hp
      rcases (hdeclared p).mp hp with hobserved | ⟨-, hp⟩
      · exact (hobserved.mem_names ht).2
      · exact h p hp

end Acceptance

/-- The sample's dependency on a tag that no package carries is rejected until it is pruned. -/
theorem accepted_after_sync_sample :
    PackageTree.build Sample.declarations [⟨"."⟩] = .ok Sample.tree ∧
    sync Sample.graph Sample.tree Sample.config.constraints true = .ok Sample.patch ∧
    sync Sample.graph Sample.tree Sample.config.constraints false =
      .ok ⟨Sample.patch.additions, []⟩ ∧
    (∃ set, ConstraintSet.ofConstraints (Sample.patch.apply Sample.config).constraints
      Sample.tree.tags = .ok set) ∧
    ¬ ∃ set, ConstraintSet.ofConstraints
      ((⟨Sample.patch.additions, []⟩ : Patch).apply Sample.config).constraints
        Sample.tree.tags = .ok set := by
  have hkeep : sync Sample.graph Sample.tree Sample.config.constraints false =
      .ok ⟨Sample.patch.additions, []⟩ := by decide +kernel
  have hstale : ConstraintSet.ofConstraints Sample.config.constraints Sample.tree.tags =
      .error (.unknownTag " stale " (.dependency 0 1)) := by decide +kernel
  obtain ⟨hpruned, -⟩ := accepted_after_sync Sample.build_eq Sample.sync_eq
  obtain ⟨-, hkept⟩ := accepted_after_sync Sample.build_eq hkeep
  refine ⟨Sample.build_eq, Sample.sync_eq, hkeep, (hpruned rfl).1.mpr (by decide +kernel), ?_⟩
  rw [hkept rfl, hstale]
  rintro ⟨set, hset⟩
  cases hset

end ImportFence
