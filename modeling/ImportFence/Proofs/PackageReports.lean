import ImportFence.Proofs.FirstFault

/-!
# Reports on all packages

Every edge of a graph is in the dependencies of one package and in the usages of one package, and the
two entries differ in the module at the other end only. The sections of all packages together list
each edge once. As a plain text, a section is the ascending list of the modules at the other ends.
-/

namespace ImportFence
open Traversal

lemma flatMap_filter_perm {α κ : Type} [DecidableEq κ] {key : α → κ} {keys : List κ}
    (hkeys : keys.Nodup) {xs : List α} (hxs : ∀ x ∈ xs, key x ∈ keys) :
    (keys.flatMap fun k => xs.filter (key · = k)).Perm xs := by
  induction keys generalizing xs with
  | nil =>
    have hnil : xs = [] := List.eq_nil_iff_forall_not_mem.mpr fun x hx => by simpa using hxs x hx
    rw [hnil]
    rfl
  | cons k keys ih =>
    obtain ⟨hk, hkeys⟩ := List.nodup_cons.mp hkeys
    -- what the other keys pick is among the members that `k` leaves
    have hothers : (keys.flatMap fun k' => (xs.filter (key · ≠ k)).filter (key · = k')) =
        keys.flatMap fun k' => xs.filter (key · = k') := by
      refine List.flatMap_congr fun k' hk' => ?_
      rw [List.filter_filter]
      refine List.filter_congr fun x _ => ?_
      have hne : key x = k' → key x ≠ k := fun h hx => hk (hx ▸ h ▸ hk')
      simpa using hne
    have hrest : ∀ x ∈ xs.filter (key · ≠ k), key x ∈ keys := by
      intro x hx
      obtain ⟨hmem, hne⟩ := List.mem_filter.mp hx
      exact (List.mem_cons.mp (hxs x hmem)).resolve_left (by simpa using hne)
    have hsplit : (xs.filter (key · = k) ++ xs.filter (key · ≠ k)).Perm xs := by
      simpa using List.filter_append_perm (key · = k) xs
    rw [List.flatMap_cons, ← hothers]
    exact ((ih hkeys hrest).append_left _).trans hsplit

/-! ### The entries of an edge -/

namespace PackageTree

/-- The module of the package with a number. -/
def moduleOf (t : PackageTree) (id : PackageId) : String :=
  ((t.get? id).map Package.module).getD ""

variable {t : PackageTree} {declarations : List Declaration}

lemma moduleOf_eq {id : PackageId} {p : Package} (h : t.get? id = some p) :
    t.moduleOf id = p.module := by
  rw [moduleOf, h]
  rfl

lemma Represents.map_id (ht : t.Represents declarations) :
    t.packages.map (·.id) = List.range t.packages.length := by
  apply List.ext_getElem
  · simp
  · intro k hk _
    rw [List.length_map] at hk
    simpa using ht.id_eq k t.packages[k] (List.getElem?_eq_getElem hk)

lemma Represents.nodup_id (ht : t.Represents declarations) : (t.packages.map (·.id)).Nodup := by
  rw [ht.map_id]
  exact List.nodup_range

lemma Represents.id_eq_iff (ht : t.Represents declarations) {id : PackageId} {p q : Package}
    (hp : t.get? id = some p) (hq : q ∈ t.packages) : q.id = id ↔ q = p := by
  constructor
  · rintro rfl
    rw [ht.get?_id hq] at hp
    exact Option.some.inj hp
  · rintro rfl
    exact ht.id_eq id q hp

end PackageTree

namespace Edge

/-- The entry of an edge in the report on a package, with the module at its other end. -/
def entry (e : Edge) (otherModule : String) : ReportEntry where
  location := e.location
  imported := e.qualified
  otherModule := otherModule
  suppressed := e.suppressed
  reason := e.reason

/-- The entry of an edge among the dependencies of the package that it leaves. -/
def asDependency (t : PackageTree) (e : Edge) : ReportEntry :=
  e.entry (t.moduleOf e.toPackage)

/-- The entry of an edge among the usages of the package that it enters. -/
def asUsage (t : PackageTree) (e : Edge) : ReportEntry :=
  e.entry (t.moduleOf e.fromPackage)

end Edge

/-! ### What a report holds -/

namespace Report

lemma entries_eq_ok {t : PackageTree} {other : Edge → PackageId} {edges : List Edge}
    (h : ∀ e ∈ edges, ∃ p, t.get? (other e) = some p) :
    entries t other edges = .ok (edges.map fun e => e.entry (t.moduleOf (other e))) := by
  apply mapM_eq_ok_map
  intro e he
  obtain ⟨p, hp⟩ := h e he
  rw [PackageTree.package, hp, PackageTree.moduleOf_eq hp]
  rfl

/-- The report on a package of the graph's tree lists the edges that leave it and those that enter
it, in their order. -/
lemma build_eq_ok {graph : Graph} {t : PackageTree}
    (h : ∀ e ∈ graph.edges, t.missing? e = none) {root : Path} {p : Package}
    (hp : t.findByRoot? root = some p) {sections : Sections}
    (hsections : (sections.dependencies || sections.usages) = true) :
    build graph t root sections = .ok {
      package := p.name
      dependencies := if sections.dependencies then
        some ((graph.dependenciesOf p.id).map (Edge.asDependency t)) else none
      usages := if sections.usages then
        some ((graph.usagesOf p.id).map (Edge.asUsage t)) else none
      warnings := graph.warnings } := by
  have hends := fun e he => PackageTree.exists_get?_of_missing? (h e he)
  have hdependencies : entries t (·.toPackage) (graph.dependenciesOf p.id) =
      .ok ((graph.dependenciesOf p.id).map (Edge.asDependency t)) :=
    entries_eq_ok fun e he => (hends e (List.mem_of_mem_filter he)).2
  have husages : entries t (·.fromPackage) (graph.usagesOf p.id) =
      .ok ((graph.usagesOf p.id).map (Edge.asUsage t)) :=
    entries_eq_ok fun e he => (hends e (List.mem_of_mem_filter he)).1
  obtain ⟨dependencies, usages⟩ := sections
  rw [build, hp]
  dsimp only at hsections ⊢
  rw [hdependencies, husages]
  cases dependencies <;> cases usages <;> first | rfl | cases hsections

/-- The lines of a section of a plain report: none if the section has no entries, otherwise its
header and then the modules at the other ends, each once, in ascending order. -/
def PlainLines (header : String) (found : Option (List ReportEntry)) (lines : List String) : Prop :=
  (found.getD [] = [] ∧ lines = []) ∨
    (found.getD [] ≠ [] ∧ ∃ modules : List String, lines = header :: modules ∧
      modules.Pairwise (· < ·) ∧
      ∀ m, m ∈ modules ↔ ∃ entry ∈ found.getD [], entry.otherModule = m)

lemma plainLines_rawLines (header : String) (found : Option (List ReportEntry)) :
    PlainLines header found (rawLines header found) := by
  match found with
  | none => exact Or.inl ⟨rfl, rfl⟩
  | some [] => exact Or.inl ⟨rfl, rfl⟩
  | some (entry :: entries) =>
    have hascending : Sorted.Ascending compare
        (Sorted.ofList compare ((entry :: entries).map (·.otherModule))) :=
      Sorted.ofList_ascending _
    refine Or.inr ⟨by simp, _, rfl, hascending.imp compareOfLessAndEq_eq_lt.mp, ?_⟩
    · intro m
      rw [Sorted.mem_ofList, List.mem_map]
      rfl

end Report

/-- The reports on the packages of a tree divide the edges of a graph among them. Every edge is in
the dependencies of the package it leaves and in the usages of the one it enters, with the module of
the other as the only difference; each section keeps the order of the graph, and all sections of a
kind together are the entries of all edges. As a plain text a section with entries is its header and
the ascending list of the other modules. -/
theorem Report.build_divides {o : GraphOptions} {declarations : List Declaration}
    {sourceRoots : List Path} (hbuild : PackageTree.build declarations sourceRoots = .ok o.tree)
    (files : List SourceFile) :
    (∀ e ∈ (o.build files).edges, ∃ p ∈ o.tree.packages, ∃ q ∈ o.tree.packages,
      (∀ r ∈ o.tree.packages, (r.id = e.fromPackage ↔ r = p) ∧ (r.id = e.toPackage ↔ r = q)) ∧
      e.asDependency o.tree = ⟨e.location, e.qualified, q.module, e.suppressed, e.reason⟩ ∧
      e.asUsage o.tree = ⟨e.location, e.qualified, p.module, e.suppressed, e.reason⟩) ∧
    (∃ report : Package → Report,
      (∀ p ∈ o.tree.packages,
        build (o.build files) o.tree p.root ⟨true, true⟩ = .ok (report p) ∧
        (report p).dependencies = some (((o.build files).edges.filter (·.fromPackage = p.id)).map
          (Edge.asDependency o.tree)) ∧
        (report p).usages = some (((o.build files).edges.filter (·.toPackage = p.id)).map
          (Edge.asUsage o.tree))) ∧
      (o.tree.packages.flatMap fun p => (report p).dependencies.getD []).Perm
        ((o.build files).edges.map (Edge.asDependency o.tree)) ∧
      (o.tree.packages.flatMap fun p => (report p).usages.getD []).Perm
        ((o.build files).edges.map (Edge.asUsage o.tree))) ∧
    ∀ p ∈ o.tree.packages, ∀ sections : Sections,
      (sections.dependencies || sections.usages) = true →
      ∃ (report : Report) (above below : List String),
        build (o.build files) o.tree p.root sections = .ok report ∧
        report.dependencies = (if sections.dependencies then
          some (((o.build files).edges.filter (·.fromPackage = p.id)).map
            (Edge.asDependency o.tree)) else none) ∧
        report.usages = (if sections.usages then
          some (((o.build files).edges.filter (·.toPackage = p.id)).map
            (Edge.asUsage o.tree)) else none) ∧
        PlainLines "# Module Dependencies" report.dependencies above ∧
        PlainLines "# Module Usages" report.usages below ∧
        report.raw = Text.join "\n" (above ++ below) := by
  have ht := PackageTree.build_represents hbuild
  have hfollows := PackageTree.build_follows hbuild
  have hknown : ∀ e ∈ (o.build files).edges, o.tree.missing? e = none :=
    fun e he => GraphOptions.missing?_eq_none ht he
  have hends : ∀ e ∈ (o.build files).edges, ∃ p q, o.tree.get? e.fromPackage = some p ∧
      o.tree.get? e.toPackage = some q := by
    intro e he
    obtain ⟨p, q, hpair⟩ := PackageTree.missing?_eq_none_iff.mp (hknown e he)
    exact ⟨p, q, PackageTree.ends_eq_ok_iff.mp hpair⟩
  have hroot : ∀ p ∈ o.tree.packages, o.tree.findByRoot? p.root = some p := by
    intro p hp
    obtain ⟨d, -, hd⟩ := hfollows.exists_declaration hp
    exact hfollows.findByRoot?_eq hp (by rw [hd.root_eq, Path.normalize_normalize])
  have hdivides : ∀ {key : Edge → PackageId} {f : Edge → ReportEntry},
      (∀ e ∈ (o.build files).edges, ∃ p, o.tree.get? (key e) = some p) →
      (o.tree.packages.flatMap fun p =>
        ((o.build files).edges.filter (key · = p.id)).map f).Perm
          ((o.build files).edges.map f) := by
    intro key f hkey
    have hmem : ∀ e ∈ (o.build files).edges, key e ∈ o.tree.packages.map (·.id) := by
      intro e he
      obtain ⟨p, hp⟩ := hkey e he
      exact List.mem_map.mpr ⟨p, List.mem_of_getElem? hp, ht.id_eq _ p hp⟩
    have hperm := (flatMap_filter_perm ht.nodup_id hmem).map f
    rwa [List.flatMap_map, List.map_flatMap] at hperm
  refine ⟨?_, ?_, ?_⟩
  · intro e he
    obtain ⟨p, q, hp, hq⟩ := hends e he
    refine ⟨p, List.mem_of_getElem? hp, q, List.mem_of_getElem? hq, ?_, ?_, ?_⟩
    · intro r hr
      exact ⟨ht.id_eq_iff hp hr, ht.id_eq_iff hq hr⟩
    · rw [Edge.asDependency, PackageTree.moduleOf_eq hq, Edge.entry]
    · rw [Edge.asUsage, PackageTree.moduleOf_eq hp, Edge.entry]
  · refine ⟨_, fun p hp => ⟨build_eq_ok hknown (hroot p hp) rfl, rfl, rfl⟩, ?_, ?_⟩
    · refine hdivides fun e he => ?_
      obtain ⟨p, q, hp, -⟩ := hends e he
      exact ⟨p, hp⟩
    · refine hdivides fun e he => ?_
      obtain ⟨p, q, -, hq⟩ := hends e he
      exact ⟨q, hq⟩
  · intro p hp sections hsections
    exact ⟨_, _, _, build_eq_ok hknown (hroot p hp) hsections, rfl, rfl,
      plainLines_rawLines _ _, plainLines_rawLines _ _, rfl⟩

/-! ### Two packages that import from each other -/

namespace Sample

/-- A source imports a name from the module that it names, and the rest of it under suppression. -/
def mutualExtractor : Extractor where
  extensions := ["py"]
  entryModule := "__init__"
  imports _ content := .ok [⟨1, 1, 0, content, .names ["Session"], false, none⟩,
    ⟨2, 1, 0, content, .wildcard, true, some "later"⟩]
  publicNames _ := .ok none

def mutualOptions : GraphOptions :=
  ⟨tree, mutualExtractor, [⟨"."⟩], false⟩

def mutualFiles : List SourceFile :=
  [⟨⟨"core/a.py"⟩, "db"⟩, ⟨⟨"db/b.py"⟩, "core"⟩]

def mutualEdges : List Edge :=
  [⟨⟨"core/a.py"⟩, 1, 1, 0, 1, "db", .name "Session", false, none⟩,
    ⟨⟨"core/a.py"⟩, 2, 1, 0, 1, "db", .wildcard, true, some "later"⟩,
    ⟨⟨"db/b.py"⟩, 1, 1, 1, 0, "core", .name "Session", false, none⟩,
    ⟨⟨"db/b.py"⟩, 2, 1, 1, 0, "core", .wildcard, true, some "later"⟩]

lemma edges_mutualFiles : (mutualOptions.build mutualFiles).edges = mutualEdges := by
  have hmodules : mutualOptions.tree.byModule = mutualOptions.tree.packages := byModule_eq
  have hfound : (mutualFiles.map mutualOptions.ofFile).flatMap (·.edges) = mutualEdges := by
    unfold GraphOptions.ofFile GraphOptions.targets GraphOptions.target?
      PackageTree.resolveModule?
    rw [hmodules]
    decide +kernel
  rw [GraphOptions.build, hfound]
  apply List.mergeSort_of_pairwise
  decide +kernel

end Sample

theorem Report.build_divides_sample :
    PackageTree.build Sample.declarations [⟨"."⟩] = .ok Sample.mutualOptions.tree ∧
    (∃ report, Report.build (Sample.mutualOptions.build Sample.mutualFiles)
        Sample.mutualOptions.tree ⟨"core"⟩ ⟨false, true⟩ = .ok report ∧
      report.dependencies = none ∧
      report.usages = some [
        ⟨⟨⟨"db/b.py"⟩, 1, 1⟩, "core.Session", "db", false, none⟩,
        ⟨⟨⟨"db/b.py"⟩, 2, 1⟩, "core", "db", true, some "later"⟩] ∧
      report.raw = "# Module Usages\ndb") := by
  obtain ⟨-, -, hsections⟩ :=
    Report.build_divides (o := Sample.mutualOptions) Sample.build_eq Sample.mutualFiles
  obtain ⟨p, hp, hroot, hid⟩ : ∃ p ∈ Sample.mutualOptions.tree.packages,
      p.root = ⟨"core"⟩ ∧ p.id = 0 := by
    decide +kernel
  obtain ⟨report, _, _, hreport, hdependencies, husages, -, -, -⟩ :=
    hsections p hp ⟨false, true⟩ rfl
  rw [hroot] at hreport
  rw [Sample.edges_mutualFiles, hid] at husages
  have hentries : report.usages = some [
      ⟨⟨⟨"db/b.py"⟩, 1, 1⟩, "core.Session", "db", false, none⟩,
      ⟨⟨⟨"db/b.py"⟩, 2, 1⟩, "core", "db", true, some "later"⟩] := by
    rw [husages]
    decide +kernel
  refine ⟨Sample.build_eq, report, hreport, hdependencies, hentries, ?_⟩
  rw [Report.raw, hentries, hdependencies]
  rfl

end ImportFence
