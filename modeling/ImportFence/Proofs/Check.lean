import ImportFence.Proofs.ConstraintSet
import ImportFence.Proofs.Orders

/-!
# What a check reports

A check fails exactly if an edge that counts names a package that the tree lacks. Otherwise it
reports each such edge once if no declared constraint leads from a tag of the importing package to
one of the imported package, and once, independently, if it enters a strict package past its
interface. The rule on tags is stated by names, as the configuration and the packages write them.
-/

namespace ImportFence
open Traversal

/-- The trimmed tags of the declared package with a number. -/
def tagNames (declarations : List Declaration) (id : PackageId) : List String :=
  (declarations[id]?.map fun d => d.tags.map Text.trim).getD []

/-- Some declared constraint leads from one of the `source` tags to one of the `target` tags. -/
def Declares (constraints : List Constraint) (source target : List String) : Prop :=
  ∃ c ∈ constraints, ∃ d ∈ c.dependsOn, Text.trim c.tag ∈ source ∧ Text.trim d ∈ target

instance (constraints : List Constraint) (source target : List String) :
    Decidable (Declares constraints source target) :=
  inferInstanceAs (Decidable (∃ c ∈ constraints, ∃ d ∈ c.dependsOn, _ ∧ _))

/-- An edge imports a public name of a package out of the package's own module. -/
def Edge.UsesInterface (e : Edge) (target : Package) : Prop :=
  e.module = target.module ∧ ∃ names ∈ target.publicNames, ∃ n ∈ names, e.symbol = .name n

instance (e : Edge) (target : Package) : Decidable (e.UsesInterface target) :=
  inferInstanceAs (Decidable (_ ∧ ∃ names ∈ target.publicNames, ∃ n ∈ names, _))

/-- An edge enters a strict package of a tree past its interface. -/
def Edge.PassesInterface (tree : PackageTree) (e : Edge) : Prop :=
  ∃ target ∈ tree.get? e.toPackage, target.strict = true ∧ ¬ e.UsesInterface target

instance (tree : PackageTree) (e : Edge) : Decidable (e.PassesInterface tree) :=
  inferInstanceAs (Decidable (∃ target ∈ tree.get? e.toPackage, _ ∧ _))

/-- By file, line, column and code. -/
def Violation.byPosition (a b : Violation) : Ordering :=
  compareLex (fun a b => Location.compare a.location b.location) (compareOn (·.kind.code)) a b

lemma Edge.throughInterface_iff {e : Edge} {target : Package} :
    e.throughInterface target = true ↔ e.UsesInterface target := by
  unfold Edge.throughInterface Edge.UsesInterface
  cases e.symbol with
  | wildcard => simp
  | name n =>
    cases h : target.publicNames <;> simp [Package.exports, h]

namespace PackageTree

/-- The first end of an edge that is no package of a tree. -/
def missing? (t : PackageTree) (e : Edge) : Option PackageId :=
  [e.fromPackage, e.toPackage].find? fun id => (t.get? id).isNone

lemma ends_eq_ok_iff {t : PackageTree} {e : Edge} {source target : Package} :
    t.ends e = .ok (source, target) ↔
      t.get? e.fromPackage = some source ∧ t.get? e.toPackage = some target := by
  unfold ends package
  cases t.get? e.fromPackage with
  | none =>
    constructor
    · intro h
      cases h
    · rintro ⟨h, -⟩
      cases h
  | some p =>
    cases t.get? e.toPackage with
    | none =>
      constructor
      · intro h
        cases h
      · rintro ⟨-, h⟩
        cases h
    | some q =>
      change Except.ok (p, q) = Except.ok (source, target) ↔ _
      simp

lemma ends_eq_error_iff {t : PackageTree} {e : Edge} {err : CheckError} :
    t.ends e = .error err ↔ (t.missing? e).map .unknownPackage = some err := by
  unfold ends package missing?
  cases hsource : t.get? e.fromPackage with
  | none =>
    change Except.error (CheckError.unknownPackage e.fromPackage) = Except.error err ↔ _
    simp [hsource]
  | some p =>
    cases htarget : t.get? e.toPackage with
    | none =>
      change Except.error (CheckError.unknownPackage e.toPackage) = Except.error err ↔ _
      simp [hsource, htarget]
    | some q =>
      change Except.ok (p, q) = Except.error err ↔ _
      simp [hsource, htarget]

lemma missing?_eq_none_iff {t : PackageTree} {e : Edge} :
    t.missing? e = none ↔ ∃ source target, t.ends e = .ok (source, target) := by
  constructor
  · intro h
    cases hends : t.ends e with
    | error err =>
      have herr := ends_eq_error_iff.mp hends
      simp [h] at herr
    | ok pair => exact ⟨pair.1, pair.2, rfl⟩
  · rintro ⟨source, target, hends⟩
    cases hmissing : t.missing? e with
    | none => rfl
    | some id =>
      have herr : t.ends e = .error (.unknownPackage id) :=
        ends_eq_error_iff.mpr (by simp [hmissing])
      rw [hends] at herr
      cases herr

lemma exists_get?_of_missing? {t : PackageTree} {e : Edge} (h : t.missing? e = none) :
    (∃ source, t.get? e.fromPackage = some source) ∧ ∃ target, t.get? e.toPackage = some target := by
  obtain ⟨source, target, hends⟩ := missing?_eq_none_iff.mp h
  obtain ⟨hsource, htarget⟩ := ends_eq_ok_iff.mp hends
  exact ⟨⟨source, hsource⟩, target, htarget⟩

/-- A pass over edges that looks at both packages of each. -/
def passOver {β : Type} (t : PackageTree) (view : Edge → Package → Package → List β)
    (edges : List Edge) : Except CheckError (List (List β)) :=
  edges.mapM fun e => do
    let (source, target) ← t.ends e
    return view e source target

/-- What a view shows of an edge: nothing if one of its packages is missing. -/
def seen {β : Type} (t : PackageTree) (view : Edge → Package → Package → List β) (e : Edge) :
    List β :=
  match t.ends e with
  | .ok (source, target) => view e source target
  | .error _ => []

section Pass

variable {β : Type} {t : PackageTree} {view : Edge → Package → Package → List β}
  {edges : List Edge}

lemma seen_of_ends {e : Edge} {source target : Package} (h : t.ends e = .ok (source, target)) :
    t.seen view e = view e source target := by
  rw [seen, h]

lemma exists_ends (h : edges.findSome? t.missing? = none) {e : Edge} (he : e ∈ edges) :
    ∃ source target, t.ends e = .ok (source, target) :=
  missing?_eq_none_iff.mp (List.findSome?_eq_none_iff.mp h e he)

lemma passOver_eq_error_iff {err : CheckError} :
    t.passOver view edges = .error err ↔
      (edges.findSome? t.missing?).map .unknownPackage = some err := by
  rw [List.map_findSome?]
  apply mapM_eq_error_iff
  intro e err
  rw [Function.comp_apply, ← ends_eq_error_iff]
  cases t.ends e <;> simp [bind, Except.bind, pure, Except.pure]

lemma passOver_eq_ok (h : edges.findSome? t.missing? = none) :
    t.passOver view edges = .ok (edges.map (t.seen view)) := by
  apply mapM_eq_ok_map
  intro e he
  obtain ⟨source, target, hends⟩ := exists_ends h he
  rw [seen, hends]
  rfl

lemma findSome?_missing?_of_passOver_ok {found : List (List β)}
    (h : t.passOver view edges = .ok found) : edges.findSome? t.missing? = none := by
  cases hmissing : edges.findSome? t.missing? with
  | none => rfl
  | some id =>
    have herr : t.passOver view edges = .error (.unknownPackage id) :=
      passOver_eq_error_iff.mpr (by rw [hmissing]; rfl)
    rw [h] at herr
    cases herr

end Pass

end PackageTree

/-! ### The check -/

section Check

variable {graph : Graph} {tree : PackageTree} {declarations : List Declaration}
  {constraints : List Constraint} {set : ConstraintSet}

lemma check_eq_passOver (graph : Graph) (tree : PackageTree) (set : ConstraintSet) :
    check graph tree set = do
      let found ← tree.passOver (Edge.violations tree set) graph.activeEdges
      return Sorted.sort Violation.compare found.flatten := rfl

lemma check_eq_error_iff {err : CheckError} :
    check graph tree set = .error err ↔
      (graph.activeEdges.findSome? tree.missing?).map .unknownPackage = some err := by
  have hpass : tree.passOver (Edge.violations tree set) graph.activeEdges = .error err ↔ _ :=
    PackageTree.passOver_eq_error_iff
  rw [check_eq_passOver, ← hpass]
  cases tree.passOver (Edge.violations tree set) graph.activeEdges <;>
    simp [bind, Except.bind, pure, Except.pure]

lemma check_eq_ok (set : ConstraintSet) (h : graph.activeEdges.findSome? tree.missing? = none) :
    check graph tree set = .ok (Sorted.sort Violation.compare
      (graph.activeEdges.flatMap (tree.seen (Edge.violations tree set)))) := by
  rw [check_eq_passOver, PackageTree.passOver_eq_ok h, List.flatMap_def]
  rfl

/-- By numbers or by names, the constraints allow the same edges. -/
lemma permits_iff_declares (ht : tree.Represents declarations) (hsize : tree.tags.size ≤ TagId.last)
    (hset : ConstraintSet.ofConstraints constraints tree.tags = .ok set) {a b : PackageId}
    {source target : Package} (ha : tree.get? a = some source) (hb : tree.get? b = some target) :
    set.permits source.tags target.tags = true ↔
      Declares constraints (tagNames declarations a) (tagNames declarations b) := by
  obtain ⟨ds, hds, hsource⟩ := ht.exists_declaration ha
  obtain ⟨dt, hdt, htarget⟩ := ht.exists_declaration hb
  simp only [ConstraintSet.permits_iff htarget.ascending,
    ConstraintSet.mem_of_ofConstraints hset, Declares, tagNames, hds, hdt, Option.map_some,
    Option.getD_some]
  constructor
  · rintro ⟨i, hi, j, hj, c, hc, d, hd, hci, hdj⟩
    exact ⟨c, hc, d, hd, (hsource.mem_tags_iff ht.wellFormed hsize hci).mp hi,
      (htarget.mem_tags_iff ht.wellFormed hsize hdj).mp hj⟩
  · rintro ⟨c, hc, d, hd, hcs, hdt⟩
    obtain ⟨i, hi, hci⟩ := hsource.exists_number hcs
    obtain ⟨j, hj, hdj⟩ := htarget.exists_number hdt
    exact ⟨i, hi, j, hj, c, hc, d, hd, hci, hdj⟩

lemma map_filter_flatMap {α β : Type} {xs : List α} {f : α → List β} {kept : β → Bool}
    {back : β → α} {p : α → Bool}
    (h : ∀ x ∈ xs, ((f x).filter kept).map back = if p x then [x] else []) :
    ((xs.flatMap f).filter kept).map back = xs.filter p := by
  induction xs with
  | nil => rfl
  | cons x xs ih =>
    rw [List.flatMap_cons, List.filter_append, List.map_append, h x List.mem_cons_self,
      ih fun y hy => h y (List.mem_cons_of_mem x hy), List.filter_cons]
    split <;> rfl

lemma violations_undeclared (tree : PackageTree) (set : ConstraintSet) (e : Edge)
    (source target : Package) :
    (e.violations tree set source target).filter (·.kind = .undeclaredDependency) =
      if set.permits source.tags target.tags then []
      else [Violation.undeclared tree.tags e source target] := by
  rw [Edge.violations]
  split <;> split <;> simp [Violation.undeclared, Violation.pastInterface]

lemma violations_strict (tree : PackageTree) (set : ConstraintSet) (e : Edge)
    (source target : Package) :
    (e.violations tree set source target).filter (·.kind = .strictInterface) =
      if target.strict && !e.throughInterface target then
        [Violation.pastInterface e source target] else [] := by
  rw [Edge.violations]
  split <;> split <;> simp [Violation.undeclared, Violation.pastInterface]

lemma passesInterface_iff {e : Edge} {target : Package}
    (h : tree.get? e.toPackage = some target) :
    e.PassesInterface tree ↔ (target.strict && !e.throughInterface target) = true := by
  rw [Bool.and_eq_true, Bool.not_eq_true', ← Bool.not_eq_true, Edge.throughInterface_iff,
    Edge.PassesInterface, h]
  simp

/-- A check is exact. It fails with the first unknown package of the first edge that has one, and
otherwise its violations of either rule are the edges that break the rule, each as often as the
graph has it, in the order of positions and codes. -/
theorem check_exact {sourceRoots : List Path}
    (hbuild : PackageTree.build declarations sourceRoots = .ok tree)
    (hsize : tree.tags.size ≤ TagId.last)
    (hset : ConstraintSet.ofConstraints constraints tree.tags = .ok set) (graph : Graph) :
    (∀ id, check graph tree set = .error (.unknownPackage id) ↔
      graph.activeEdges.findSome? tree.missing? = some id) ∧
    (graph.activeEdges.findSome? tree.missing? = none →
      ∃ found, check graph tree set = .ok found ∧
        ((found.filter (·.kind = .undeclaredDependency)).map (·.edge)).Perm
          (graph.activeEdges.filter fun e => ¬ Declares constraints
            (tagNames declarations e.fromPackage) (tagNames declarations e.toPackage)) ∧
        ((found.filter (·.kind = .strictInterface)).map (·.edge)).Perm
          (graph.activeEdges.filter (Edge.PassesInterface tree)) ∧
        found.Pairwise fun a b => (a.byPosition b).isLE) := by
  have ht := PackageTree.build_represents hbuild
  constructor
  · intro id
    rw [check_eq_error_iff]
    cases graph.activeEdges.findSome? tree.missing? <;> simp
  · intro hknown
    refine ⟨_, check_eq_ok set hknown, ?_, ?_, ?_⟩
    · refine (((Sorted.sort_perm _ _).filter _).map _).trans (List.Perm.of_eq ?_)
      apply map_filter_flatMap
      intro e he
      obtain ⟨source, target, hends⟩ := PackageTree.exists_ends hknown he
      obtain ⟨hsource, htarget⟩ := PackageTree.ends_eq_ok_iff.mp hends
      rw [PackageTree.seen_of_ends hends, violations_undeclared]
      simp only [decide_not, ← permits_iff_declares ht hsize hset hsource htarget]
      cases set.permits source.tags target.tags <;> rfl
    · refine (((Sorted.sort_perm _ _).filter _).map _).trans (List.Perm.of_eq ?_)
      apply map_filter_flatMap
      intro e he
      obtain ⟨source, target, hends⟩ := PackageTree.exists_ends hknown he
      obtain ⟨-, htarget⟩ := PackageTree.ends_eq_ok_iff.mp hends
      rw [PackageTree.seen_of_ends hends, violations_strict]
      simp only [passesInterface_iff htarget, Bool.decide_eq_true]
      cases target.strict && !e.throughInterface target <;> rfl
    · refine (Sorted.sort_pairwise Violation.compare _).imp ?_
      intro a b hab
      exact isLE_of_compareLex hab

end Check

/-! ### A small project

`core` may depend on `db`, whose interface is one name. -/

namespace Sample

def declarations : List Declaration :=
  [⟨⟨"core"⟩, [" core", "app"], false, none⟩, ⟨⟨"./db"⟩, ["db "], true, some ["Session"]⟩]

def tree : PackageTree where
  packages :=
    [⟨0, ⟨"core"⟩, "core", ⟨[0, 1]⟩, false, none⟩,
      ⟨1, ⟨"db"⟩, "db", ⟨[2]⟩, true, some ["Session"]⟩]
  tags := ⟨["core", "app", "db"], [("db", 2), ("app", 1), ("core", 0)]⟩

def constraints : List Constraint :=
  [⟨"core ", [" db"]⟩, ⟨"app", []⟩]

def set : ConstraintSet :=
  ⟨[(1, ⟨[]⟩), (0, ⟨[2]⟩)]⟩

/-- Imports a name of the interface. -/
def throughInterface : Edge :=
  ⟨⟨"core/a.py"⟩, 1, 1, 0, 1, "db", .name "Session", false, none⟩

/-- Imports a name from inside a strict package. -/
def pastInterface : Edge :=
  ⟨⟨"core/a.py"⟩, 2, 1, 0, 1, "db.internal", .name "Helper", false, none⟩

/-- Imports against the declared direction. -/
def backwards : Edge :=
  ⟨⟨"db/b.py"⟩, 1, 1, 1, 0, "core", .wildcard, false, none⟩

/-- Names a package that does not exist, but does not count. -/
def suppressed : Edge :=
  ⟨⟨"db/b.py"⟩, 2, 1, 1, 7, "gone", .wildcard, true, some "legacy"⟩

def graph : Graph :=
  ⟨[suppressed, backwards, throughInterface, pastInterface], [], 2, 3⟩

lemma build_eq : PackageTree.build declarations [⟨"."⟩] = .ok tree := by decide +kernel

lemma size_le : tree.tags.size ≤ TagId.last := by decide

lemma ofConstraints_eq : ConstraintSet.ofConstraints constraints tree.tags = .ok set := by
  decide +kernel

end Sample

theorem check_exact_sample :
    PackageTree.build Sample.declarations [⟨"."⟩] = .ok Sample.tree ∧
    Sample.tree.tags.size ≤ TagId.last ∧
    ConstraintSet.ofConstraints Sample.constraints Sample.tree.tags = .ok Sample.set ∧
    ∃ found, check Sample.graph Sample.tree Sample.set = .ok found ∧
      ((found.filter (·.kind = .undeclaredDependency)).map (·.edge)).Perm [Sample.backwards] ∧
      ((found.filter (·.kind = .strictInterface)).map (·.edge)).Perm [Sample.pastInterface] := by
  refine ⟨Sample.build_eq, Sample.size_le, Sample.ofConstraints_eq, ?_⟩
  obtain ⟨-, hok⟩ :=
    check_exact Sample.build_eq Sample.size_le Sample.ofConstraints_eq Sample.graph
  obtain ⟨found, hfound, hundeclared, hstrict, -⟩ := hok (by decide +kernel)
  have hu : (Sample.graph.activeEdges.filter fun e => ¬ Declares Sample.constraints
      (tagNames Sample.declarations e.fromPackage) (tagNames Sample.declarations e.toPackage)) =
        [Sample.backwards] := by
    decide +kernel
  have hs : Sample.graph.activeEdges.filter (Edge.PassesInterface Sample.tree) =
      [Sample.pastInterface] := by
    decide +kernel
  exact ⟨found, hfound, hu ▸ hundeclared, hs ▸ hstrict⟩

end ImportFence
