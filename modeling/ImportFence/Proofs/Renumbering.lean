import ImportFence.Proofs.PackageView

/-!
# Renumbering packages

Two trees of the same packages may give them, and their tags, different numbers. Step by step the
files, statements and imports of the two graphs pair up, and what a check or a synchronisation
finds in them is the same.
-/

namespace ImportFence

/-- A violation as it is reported, without the numbers of packages. -/
def Violation.finding (v : Violation) : ViolationKind × Location × String :=
  (v.kind, v.location, v.message)

lemma exists_mem_iff_of_related {α β : Type} {R : α → β → Prop} {xs : List α} {ys : List β}
    {p : α → Prop} {q : β → Prop} (h : List.Forall₂ R xs ys) (hpq : ∀ x y, R x y → (p x ↔ q y)) :
    (∃ x ∈ xs, p x) ↔ ∃ y ∈ ys, q y := by
  induction h with
  | nil => simp
  | cons hxy _ ih => rw [List.exists_mem_cons_iff, List.exists_mem_cons_iff, hpq _ _ hxy, ih]

/-! ### Pairing up packages and imports -/

/-- Packages of two trees that differ in numbers only. -/
structure SameView (t t' : PackageTree) (p p' : Package) : Prop where
  mem : p ∈ t.packages
  mem' : p' ∈ t'.packages
  view_eq : t.view p = t'.view p'

/-- Two trees of the same packages under different numbers. -/
structure Renumbered (t t' : PackageTree) : Prop where
  left : t.Distinguishes
  right : t'.Distinguishes
  views : (t.packages.map t.view).Perm (t'.packages.map t'.view)

/-- The same symbol of the same statement, in files of packages with the same view. -/
def SameOccurrence (t t' : PackageTree) (x x' : Occurrence) : Prop :=
  ∃ source, x' = { x with source := source } ∧ SameView t t' x.source source

/-- The same import, between packages with the same views. -/
structure SameImport (t t' : PackageTree) (e e' : Edge) : Prop where
  eq : e' = { e with fromPackage := e'.fromPackage, toPackage := e'.toPackage }
  source : ∃ p p', t.get? e.fromPackage = some p ∧ t'.get? e'.fromPackage = some p' ∧
    t.view p = t'.view p'
  target : ∃ p p', t.get? e.toPackage = some p ∧ t'.get? e'.toPackage = some p' ∧
    t.view p = t'.view p'

lemma SameView.id_eq_iff {t t' : PackageTree} {p p' q q' : Package} (ht : t.Distinguishes)
    (ht' : t'.Distinguishes) (hp : SameView t t' p p') (hq : SameView t t' q q') :
    p.id = q.id ↔ p'.id = q'.id := by
  rw [ht.eq_iff_view hp.mem hq.mem, ht'.eq_iff_view hp.mem' hq.mem', hp.view_eq, hq.view_eq]

namespace Renumbered

variable {t t' : PackageTree} (h : Renumbered t t')

lemma rel_of_map_eq {r r' : Option Package} (hmap : r.map t.view = r'.map t'.view)
    (hr : ∀ p, r = some p → p ∈ t.packages) (hr' : ∀ p, r' = some p → p ∈ t'.packages) :
    Option.Rel (SameView t t') r r' := by
  cases r with
  | none =>
    cases r' with
    | none => exact Option.Rel.none
    | some p' => cases hmap
  | some p =>
    cases r' with
    | none => cases hmap
    | some p' => exact Option.Rel.some ⟨hr p rfl, hr' p' rfl, Option.some.inj hmap⟩

include h

lemma resolve? (file : Path) : Option.Rel (SameView t t') (t.resolve? file) (t'.resolve? file) :=
  rel_of_map_eq (PackageTree.map_resolve? h.left h.views file)
    (fun _ => PackageTree.resolve?_mem) fun _ => PackageTree.resolve?_mem

lemma resolveModule? (module : String) :
    Option.Rel (SameView t t') (t.resolveModule? module) (t'.resolveModule? module) :=
  rel_of_map_eq (PackageTree.map_resolveModule? h.left h.views module)
    (fun _ => PackageTree.resolveModule?_mem) fun _ => PackageTree.resolveModule?_mem

lemma occurrencesOf (o : GraphOptions) (f : SourceFile) :
    List.Forall₂ (SameOccurrence t t') ({ o with tree := t }.occurrencesOf f)
      ({ o with tree := t' }.occurrencesOf f) := by
  rw [GraphOptions.occurrencesOf, GraphOptions.occurrencesOf]
  dsimp only
  cases o.extractor.handles f.path with
  | false => exact List.Forall₂.nil
  | true =>
    have hrel := h.resolve? f.path
    revert hrel
    generalize t.resolve? f.path = r
    generalize t'.resolve? f.path = r'
    intro hrel
    cases hrel with
    | none => exact List.Forall₂.nil
    | @some p p' hview =>
      cases Module.ofFile? o.sourceRoots f.path with
      | none => exact List.Forall₂.nil
      | some fileModule =>
        cases o.extractor.imports o.ignoreTypeChecking f.content with
        | error e => exact List.Forall₂.nil
        | ok imports =>
          simp only [if_true]
          have hmap : (imports.flatMap fun i => i.names.symbols.map fun s =>
              (⟨f.path, fileModule, p', i, s⟩ : Occurrence)) =
              (imports.flatMap fun i => i.names.symbols.map fun s =>
                (⟨f.path, fileModule, p, i, s⟩ : Occurrence)).map
                fun x => { x with source := p' } := by
            simp [List.map_flatMap, Function.comp_def]
          rw [hmap, List.forall₂_map_right_iff, List.forall₂_same]
          intro x hx
          obtain ⟨i, -, hi⟩ := List.mem_flatMap.mp hx
          obtain ⟨s, -, rfl⟩ := List.mem_map.mp hi
          exact ⟨p', rfl, hview⟩

lemma occurrences (o : GraphOptions) (files : List SourceFile) :
    List.Forall₂ (SameOccurrence t t') ({ o with tree := t }.occurrences files)
      ({ o with tree := t' }.occurrences files) :=
  List.rel_flatMap (List.forall₂_same.mpr fun _ _ => rfl) fun f f' (hf : f = f') =>
    hf ▸ h.occurrencesOf o f

lemma edge? {x x' : Occurrence} (hx : SameOccurrence t t' x x') :
    Option.Rel (SameImport t t') (x.edge? t) (x'.edge? t') := by
  obtain ⟨source, rfl, hsource⟩ := hx
  have hmodule' : Occurrence.module? { x with source := source } = x.module? := rfl
  rw [Occurrence.edge?, Occurrence.edge?, Occurrence.target?, Occurrence.target?, hmodule']
  cases x.module? with
  | none => exact Option.Rel.none
  | some module =>
    simp only [Option.bind_eq_bind, Option.bind_some]
    split
    · exact Option.Rel.none
    · have hrel := h.resolveModule? (x.symbol.qualify module)
      revert hrel
      generalize t.resolveModule? (x.symbol.qualify module) = r
      generalize t'.resolveModule? (x.symbol.qualify module) = r'
      intro hrel
      cases hrel with
      | none => exact Option.Rel.none
      | @some q q' htarget =>
        simp only [Option.bind_some, htarget.id_eq_iff h.left h.right hsource]
        split
        · exact Option.Rel.none
        · exact Option.Rel.some ⟨rfl,
            ⟨_, _, h.left.get?_id _ hsource.mem, h.right.get?_id _ hsource.mem', hsource.view_eq⟩,
            ⟨_, _, h.left.get?_id _ htarget.mem, h.right.get?_id _ htarget.mem', htarget.view_eq⟩⟩

lemma edges (o : GraphOptions) (files : List SourceFile) :
    List.Forall₂ (SameImport t t')
      (({ o with tree := t }.occurrences files).filterMap (Occurrence.edge? t))
      (({ o with tree := t' }.occurrences files).filterMap (Occurrence.edge? t')) :=
  List.rel_filterMap (fun _ _ hx => h.edge? hx) (h.occurrences o files)

end Renumbered

/-! ### What is found -/

lemma PackageTree.mem_view_tags {t : PackageTree} {p : Package} {n : String} :
    n ∈ (t.view p).tags ↔ ∃ id ∈ p.tags.ids, t.tags.name id = n := by
  rw [view, (Sorted.sort_perm _ _).mem_iff, List.mem_map]

lemma PackageTree.permits_iff_view {t : PackageTree} {declarations : List Declaration}
    {constraints : List Constraint} {set : ConstraintSet} (ht : t.Represents declarations)
    (hsize : t.tags.size ≤ TagId.last)
    (hset : ConstraintSet.ofConstraints constraints t.tags = .ok set) {a b : PackageId}
    {source target : Package} (ha : t.get? a = some source) (hb : t.get? b = some target) :
    set.permits source.tags target.tags = true ↔
      Declares constraints (t.view source).tags (t.view target).tags := by
  have hmem : ∀ {id : PackageId} {p : Package}, t.get? id = some p → ∀ n,
      n ∈ tagNames declarations id ↔ n ∈ (t.view p).tags := by
    intro id p hp n
    obtain ⟨d, hd, hrepresents⟩ := ht.exists_declaration hp
    rw [view, hrepresents.sort_names ht.wellFormed hsize, Sorted.mem_ofList, tagNames, hd]
    rfl
  rw [permits_iff_declares ht hsize hset ha hb, Declares, Declares]
  simp only [hmem ha, hmem hb]

section Findings

variable {t t' : PackageTree} {e e' : Edge} {source source' target target' : Package}
  {set set' : ConstraintSet}

lemma violations_congr
    (he : e' = { e with fromPackage := e'.fromPackage, toPackage := e'.toPackage })
    (hsource : t.view source = t'.view source') (htarget : t.view target = t'.view target')
    (hpermits : set.permits source.tags target.tags = set'.permits source'.tags target'.tags) :
    (e.violations t set source target).map Violation.finding =
      (e'.violations t' set' source' target').map Violation.finding := by
  simp only [PackageTree.view, PackageView.mk.injEq] at hsource htarget
  obtain ⟨hroot, -, htags, -, -⟩ := hsource
  obtain ⟨hroot', hmodule, htags', hstrict, hpublic⟩ := htarget
  have hthrough : e.throughInterface target = e'.throughInterface target' := by
    rw [he]
    simp [Edge.throughInterface, Package.exports, hmodule, hpublic]
  have hundeclared : (Violation.undeclared t.tags e source target).finding =
      (Violation.undeclared t'.tags e' source' target').finding := by
    rw [he]
    simp [Violation.undeclared, Violation.finding, Violation.location, Edge.location,
      Edge.qualified, TagTable.display, Package.name, hroot, hroot', htags, htags']
  have hpast : (Violation.pastInterface e source target).finding =
      (Violation.pastInterface e' source' target').finding := by
    rw [he]
    simp [Violation.pastInterface, Violation.finding, Violation.location, Edge.location,
      Violation.strictDetail, Edge.qualified, Package.name, hroot, hroot']
  rw [Edge.violations, Edge.violations, List.map_append, List.map_append, hpermits, hstrict,
    hthrough]
  congr 1
  · split
    · rfl
    · rw [List.map_singleton, List.map_singleton, hundeclared]
  · split
    · rw [List.map_singleton, List.map_singleton, hpast]
    · rfl

end Findings

namespace GraphOptions

/-- The imports that count, in the order of the files. -/
def activeImports (o : GraphOptions) (files : List SourceFile) : List Edge :=
  ((o.occurrences files).filterMap (Occurrence.edge? o.tree)).filter fun e => !e.suppressed

lemma activeEdges_perm (o : GraphOptions) (files : List SourceFile) :
    (o.build files).activeEdges.Perm (o.activeImports files) :=
  (build_edges_perm o files).filter _

lemma findSome?_missing? (o : GraphOptions) {declarations : List Declaration}
    (ht : o.tree.Represents declarations) (files : List SourceFile) :
    (o.build files).activeEdges.findSome? o.tree.missing? = none := by
  rw [List.findSome?_eq_none_iff]
  intro e he
  exact missing?_eq_none ht (List.mem_of_mem_filter he)

/-- Up to their order, the findings are those of the imports, one by one. -/
lemma check_findings (o : GraphOptions) {declarations : List Declaration}
    (ht : o.tree.Represents declarations) (files : List SourceFile) (set : ConstraintSet) :
    ∃ found, check (o.build files) o.tree set = .ok found ∧
      (found.map Violation.finding).Perm ((o.activeImports files).flatMap fun e =>
        (o.tree.seen (Edge.violations o.tree set) e).map Violation.finding) := by
  refine ⟨_, check_eq_ok set (o.findSome?_missing? ht files), ?_⟩
  rw [← List.map_flatMap]
  exact ((Sorted.sort_perm _ _).trans ((o.activeEdges_perm files).flatMap_right _)).map _

end GraphOptions

namespace Renumbered

variable {t t' : PackageTree} (h : Renumbered t t') {declarations declarations' : List Declaration}
  (ht : t.Represents declarations) (ht' : t'.Represents declarations') (o : GraphOptions)
  (files : List SourceFile) {constraints : List Constraint}

include h in
lemma activeImports : List.Forall₂ (SameImport t t') ({ o with tree := t }.activeImports files)
    ({ o with tree := t' }.activeImports files) := by
  refine List.rel_filter ?_ (h.edges o files)
  intro e e' he
  rw [he.eq]

include ht ht' in
lemma seen_violations (hsize : t.tags.size ≤ TagId.last) (hsize' : t'.tags.size ≤ TagId.last)
    {set set' : ConstraintSet}
    (hset : ConstraintSet.ofConstraints constraints t.tags = .ok set)
    (hset' : ConstraintSet.ofConstraints constraints t'.tags = .ok set') {e e' : Edge}
    (he : SameImport t t' e e') :
    (t.seen (Edge.violations t set) e).map Violation.finding =
      (t'.seen (Edge.violations t' set') e').map Violation.finding := by
  obtain ⟨source, source', hsource, hsource', hview⟩ := he.source
  obtain ⟨target, target', htarget, htarget', hview'⟩ := he.target
  rw [PackageTree.seen_of_ends (PackageTree.ends_eq_ok_iff.mpr ⟨hsource, htarget⟩),
    PackageTree.seen_of_ends (PackageTree.ends_eq_ok_iff.mpr ⟨hsource', htarget'⟩)]
  refine violations_congr he.eq hview hview' ?_
  rw [Bool.eq_iff_iff, PackageTree.permits_iff_view ht hsize hset hsource htarget,
    PackageTree.permits_iff_view ht' hsize' hset' hsource' htarget', hview, hview']

lemma observes_iff {e e' : Edge} (he : SameImport t t' e e') (p : TagPair) :
    (∃ source ∈ t.get? e.fromPackage, ∃ target ∈ t.get? e.toPackage,
      ∃ s ∈ source.tags.ids, ∃ a ∈ target.tags.ids, p = ⟨t.tags.name s, t.tags.name a⟩) ↔
    ∃ source ∈ t'.get? e'.fromPackage, ∃ target ∈ t'.get? e'.toPackage,
      ∃ s ∈ source.tags.ids, ∃ a ∈ target.tags.ids,
        p = ⟨t'.tags.name s, t'.tags.name a⟩ := by
  obtain ⟨source, source', hsource, hsource', hview⟩ := he.source
  obtain ⟨target, target', htarget, htarget', hview'⟩ := he.target
  have hpairs : ∀ (t : PackageTree) (source target : Package),
      (∃ s ∈ source.tags.ids, ∃ a ∈ target.tags.ids, p = ⟨t.tags.name s, t.tags.name a⟩) ↔
        p.source ∈ (t.view source).tags ∧ p.allowed ∈ (t.view target).tags := by
    intro t source target
    rw [PackageTree.mem_view_tags, PackageTree.mem_view_tags]
    constructor
    · rintro ⟨s, hs, a, ha, rfl⟩
      exact ⟨⟨s, hs, rfl⟩, a, ha, rfl⟩
    · rintro ⟨⟨s, hs, hname⟩, a, ha, hname'⟩
      exact ⟨s, hs, a, ha, by rw [hname, hname']⟩
  simp only [hsource, hsource', htarget, htarget', Option.mem_some_iff, exists_eq_left', hpairs,
    hview, hview']

include h

lemma observed_iff (p : TagPair) :
    Observed ({ o with tree := t }.build files) t p ↔
      Observed ({ o with tree := t' }.build files) t' p := by
  have hmem : ∀ (o : GraphOptions) e, e ∈ (o.build files).activeEdges ↔
      e ∈ o.activeImports files := fun o _ => (o.activeEdges_perm files).mem_iff
  rw [Observed, Observed]
  simp only [hmem]
  exact exists_mem_iff_of_related (h.activeImports o files) fun e e' he => observes_iff he p

include ht ht'

lemma check_perm (hsize : t.tags.size ≤ TagId.last) (hsize' : t'.tags.size ≤ TagId.last)
    {set set' : ConstraintSet}
    (hset : ConstraintSet.ofConstraints constraints t.tags = .ok set)
    (hset' : ConstraintSet.ofConstraints constraints t'.tags = .ok set') :
    ∃ found found', check ({ o with tree := t }.build files) t set = .ok found ∧
      check ({ o with tree := t' }.build files) t' set' = .ok found' ∧
      (found.map Violation.finding).Perm (found'.map Violation.finding) := by
  obtain ⟨found, hcheck, hperm⟩ := GraphOptions.check_findings { o with tree := t } ht files set
  obtain ⟨found', hcheck', hperm'⟩ :=
    GraphOptions.check_findings { o with tree := t' } ht' files set'
  have hsame := map_eq_of_related (h.activeImports o files) fun e e' he =>
    seen_violations ht ht' hsize hsize' hset hset' he
  refine ⟨found, found', hcheck, hcheck', hperm.trans ?_⟩
  rw [List.flatMap_def, hsame, ← List.flatMap_def]
  exact hperm'.symm

lemma sync_eq (constraints : List Constraint) (prune : Bool) :
    ∃ patch, sync ({ o with tree := t }.build files) t constraints prune = .ok patch ∧
      sync ({ o with tree := t' }.build files) t' constraints prune = .ok patch := by
  obtain ⟨⟨additions, prunes⟩, hsync⟩ := sync_eq_ok
    (GraphOptions.findSome?_missing? { o with tree := t } ht files) constraints prune
  obtain ⟨⟨additions', prunes'⟩, hsync'⟩ := sync_eq_ok
    (GraphOptions.findSome?_missing? { o with tree := t' } ht' files) constraints prune
  obtain ⟨-, hadditions, hprunes, hascending, hascending_prunes⟩ := sync_ok hsync
  obtain ⟨-, hadditions', hprunes', hascending', hascending_prunes'⟩ := sync_ok hsync'
  have hobserved := h.observed_iff o files
  have hsame : additions = additions' := by
    refine Sorted.Ascending.eq_of_mem_iff hascending hascending' fun p => ?_
    rw [hadditions, hadditions', hobserved]
  have hsame_prunes : prunes = prunes' := by
    refine Sorted.Ascending.eq_of_mem_iff hascending_prunes hascending_prunes' fun p => ?_
    rw [hprunes, hprunes', hobserved]
  exact ⟨_, hsync, by rw [hsync', hsame, hsame_prunes]⟩

end Renumbered

end ImportFence
