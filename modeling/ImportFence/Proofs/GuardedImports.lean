import ImportFence.Proofs.FileOrder
import ImportFence.Proofs.SourceImports

/-!
# Imports for type checkers

Reading a source without the imports for type checkers drops those of the guarded import statements
and nothing else: the walk that skips the bodies of guards leaves the other statements in their order.
-/

namespace ImportFence.Source

/-- The imports that the statements at some sites make, each with the address of its statement. -/
def recordsAt (suppressed : SuppressedLines) (found : List (List Step × ImportStatement)) :
    List (List Step × Import) :=
  found.flatMap fun x => (x.2.imports suppressed).map fun i => (x.1, i)

lemma map_recordsAt (suppressed : SuppressedLines)
    (found : List (List Step × ImportStatement)) :
    (recordsAt suppressed found).map (·.2) =
      (found.map (·.2)).flatMap (·.imports suppressed) := by
  simp [recordsAt, List.map_flatMap, List.flatMap_map, Function.comp_def]

lemma filter_recordsAt (suppressed : SuppressedLines) (p : List Step → Bool)
    (found : List (List Step × ImportStatement)) :
    (recordsAt suppressed found).filter (fun r => p r.1) =
      recordsAt suppressed (found.filter fun x => p x.1) := by
  apply filter_flatMap_of_source
  intro x _ r hr
  obtain ⟨i, -, rfl⟩ := List.mem_map.mp hr
  rfl

lemma filter_sites {s : Statement} {x : List Step × ImportStatement} (hx : x ∈ sites s) :
    (sites s).filter (fun y => y.1 = x.1) = [x] := by
  have hnodup := nodup_sites s
  generalize sites s = found at hx hnodup
  induction found with
  | nil => cases hx
  | cons y found ih =>
    obtain ⟨hy, hfound⟩ := List.nodup_cons.mp hnodup
    rcases List.mem_cons.mp hx with rfl | hx
    · have hnone : found.filter (fun y => y.1 = x.1) = [] := by
        rw [List.filter_eq_nil_iff]
        intro z hz heq
        exact hy (List.mem_map.mpr ⟨z, hz, of_decide_eq_true heq⟩)
      rw [List.filter_cons_of_pos (by simp), hnone]
    · have hne : y.1 ≠ x.1 := fun heq => hy (List.mem_map.mpr ⟨x, hx, heq.symm⟩)
      rw [List.filter_cons_of_neg (by simpa using hne), ih hx hfound]

lemma filter_recordsAt_sites (suppressed : SuppressedLines) {root : Statement}
    {x : List Step × ImportStatement} (hx : x ∈ sites root) :
    ((recordsAt suppressed (sites root)).filter fun r => r.1 = x.1).map (·.2) =
      x.2.imports suppressed := by
  rw [filter_recordsAt suppressed (· = x.1), filter_sites hx, map_recordsAt, List.map_singleton,
    List.flatMap_singleton]

lemma exists_importing_of_mem_recordsAt {suppressed : SuppressedLines} {root : Statement}
    {r : List Step × Import} (hr : r ∈ recordsAt suppressed (sites root)) :
    ∃ s, root.at? r.1 = some (.importing s) := by
  obtain ⟨x, hx, hr⟩ := List.mem_flatMap.mp hr
  obtain ⟨i, -, rfl⟩ := List.mem_map.mp hr
  exact ⟨x.2, (mem_sites root x).mp hx⟩

/-- The imports of a source are the records of the addresses that its walk looks at. -/
lemma extractImports_eq (ignoreTypeChecking : Bool) (source : String) :
    extractImports ignoreTypeChecking source = (parse source.toList).map fun tree =>
      ((recordsAt (suppressedLines source.toList tree.root) (sites tree.root)).filter
        fun r => visits ignoreTypeChecking tree.root r.1).map (·.2) := by
  rw [extractImports_eq_walk]
  congr 1
  funext tree
  rw [importsOf_eq, filter_recordsAt, map_recordsAt]

/-- Leaving out the imports for type checkers changes no error, and of the imports it drops exactly
those whose statement is guarded. All others stay as they are, in their order. -/
theorem extractImports_unguarded (source : String) :
    (∀ e, extractImports true source = .error e ↔ extractImports false source = .error e) ∧
    ∀ all, extractImports false source = .ok all →
      ∃ (tree : Tree) (kept : List Import) (found : List (List Step × Import)),
        parse source.toList = .ok tree ∧
        extractImports true source = .ok kept ∧
        kept.Sublist all ∧
        all = found.map (·.2) ∧
        kept = (found.filter fun r => ¬ tree.root.Guarded r.1).map (·.2) ∧
        (∀ r ∈ found, ∃ s, tree.root.at? r.1 = some (.importing s)) ∧
        ∀ address s, tree.root.at? address = some (.importing s) →
          (found.filter fun r => r.1 = address).map (·.2) =
            s.imports (suppressedLines source.toList tree.root) := by
  rw [extractImports_eq, extractImports_eq]
  cases hparse : parse source.toList with
  | error e => exact ⟨fun _ => Iff.rfl, fun all hall => nomatch hall⟩
  | ok tree =>
    refine ⟨fun e => iff_of_false (fun h => nomatch h) (fun h => nomatch h), ?_⟩
    intro all hall
    cases hall
    refine ⟨tree, _, recordsAt (suppressedLines source.toList tree.root) (sites tree.root), rfl,
      rfl, ?_, ?_, ?_, ?_, ?_⟩
    · exact List.Sublist.map _ (by simp [visits])
    · simp [visits]
    · simp [visits]
    · exact fun r hr => exists_importing_of_mem_recordsAt hr
    · intro address s hat
      exact filter_recordsAt_sites _ ((mem_sites _ (address, s)).mpr hat)

namespace Sample

/-- A guard with a choice in its body, and another guard in its further branch. -/
def guardedSource : String :=
  "if TYPE_CHECKING:\n if x: import a\nelse:\n" ++
  " if typing.TYPE_CHECKING: import b # tagbound: ignore\n elif TYPE_CHECKING: import c\n" ++
  "import d, e\n"

def guardedImports : List Import :=
  [⟨2, 8, 0, "a", .wildcard, false, none⟩, ⟨4, 27, 0, "b", .wildcard, true, none⟩,
    ⟨5, 22, 0, "c", .wildcard, false, none⟩, ⟨6, 1, 0, "d", .wildcard, false, none⟩,
    ⟨6, 1, 0, "e", .wildcard, false, none⟩]

end Sample

theorem extractImports_unguarded_sample :
    extractImports false Sample.guardedSource = .ok Sample.guardedImports ∧
    ∃ tree kept, parse Sample.guardedSource.toList = .ok tree ∧
      extractImports true Sample.guardedSource = .ok kept ∧ kept.Sublist Sample.guardedImports ∧
      kept = Sample.guardedImports.drop 2 := by
  -- the source is parsed once for both walks
  have hwalks : (parse Sample.guardedSource.toList).map (fun tree =>
      let suppressed := suppressedLines Sample.guardedSource.toList tree.root
      ((importsOf false tree.root).flatMap (·.imports suppressed),
        (importsOf true tree.root).flatMap (·.imports suppressed))) =
      .ok (Sample.guardedImports, Sample.guardedImports.drop 2) := by
    decide +kernel
  obtain ⟨parsed, hparsed, hwalks⟩ := Traversal.map_eq_ok_iff.mp hwalks
  obtain ⟨hevery, hdropped⟩ := Prod.mk.inj hwalks
  have hall : extractImports false Sample.guardedSource = .ok Sample.guardedImports := by
    rw [extractImports_eq_walk, hparsed]
    exact congrArg Except.ok hevery
  have hopen : extractImports true Sample.guardedSource = .ok (Sample.guardedImports.drop 2) := by
    rw [extractImports_eq_walk, hparsed]
    exact congrArg Except.ok hdropped
  obtain ⟨tree, kept, found, hparse, hkept, hsublist, -⟩ :=
    (extractImports_unguarded Sample.guardedSource).2 Sample.guardedImports hall
  refine ⟨hall, tree, kept, hparse, hkept, hsublist, ?_⟩
  exact Except.ok.inj (hkept.symm.trans hopen)

end ImportFence.Source
