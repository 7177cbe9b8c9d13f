import ImportFence.Report
import ImportFence.Proofs.Sync

/-!
# What a graph is made of

Every symbol that a readable file of a package imports is an occurrence. The edges of a graph are the
occurrences whose absolute name resolves to another package than the file's own, one edge each; the
occurrences that resolve to the file's own package are counted but give no edge. The packages that
edges name are therefore packages of the tree, and nothing that reads the graph fails on them.
-/

namespace ImportFence
open Traversal

/-- One symbol that a statement in a file of a package imports. -/
structure Occurrence where
  file : Path
  fileModule : String
  source : Package
  statement : Import
  symbol : Symbol

namespace Occurrence

/-- The absolute name of the module that the statement names, unless it climbs above the source
root. -/
def module? (x : Occurrence) : Option String :=
  if x.statement.level = 0 then some x.statement.module
  else Module.resolveRelative? x.fileModule (Module.isPackageFile x.file) x.statement.level
    x.statement.module

/-- The package that owns the imported symbol, by its full name. -/
def target? (tree : PackageTree) (x : Occurrence) : Option Package := do
  let module ← x.module?
  let name := x.symbol.qualify module
  if name = "" then none else tree.resolveModule? name

/-- The file belongs to the package from which it imports. -/
def isSelfImport (tree : PackageTree) (x : Occurrence) : Bool :=
  (x.target? tree).any fun target => target.id = x.source.id

/-- The edge of an occurrence that resolves to another package. -/
def edge? (tree : PackageTree) (x : Occurrence) : Option Edge := do
  let module ← x.module?
  let target ← x.target? tree
  if target.id = x.source.id then none
  else some {
    file := x.file
    line := x.statement.line
    column := x.statement.column
    fromPackage := x.source.id
    toPackage := target.id
    module := module
    symbol := x.symbol
    suppressed := x.statement.suppressed
    reason := x.statement.reason }

end Occurrence

namespace GraphOptions

/-- The occurrences in a file: none unless the file is of the language, lies in a package and below
a source root, and can be read. -/
def occurrencesOf (o : GraphOptions) (f : SourceFile) : List Occurrence :=
  if o.extractor.handles f.path then
    match o.tree.resolve? f.path, Module.ofFile? o.sourceRoots f.path,
      o.extractor.imports o.ignoreTypeChecking f.content with
    | some source, some fileModule, .ok imports =>
      imports.flatMap fun i => i.names.symbols.map fun s => ⟨f.path, fileModule, source, i, s⟩
    | _, _, _ => []
  else []

def occurrences (o : GraphOptions) (files : List SourceFile) : List Occurrence :=
  files.flatMap o.occurrencesOf

variable {o : GraphOptions}

lemma of_mem_occurrences {files : List SourceFile} {x : Occurrence} (h : x ∈ o.occurrences files) :
    o.tree.resolve? x.file = some x.source ∧ x.symbol ∈ x.statement.names.symbols := by
  obtain ⟨f, -, hx⟩ := List.mem_flatMap.mp h
  rw [occurrencesOf] at hx
  split at hx
  · split at hx
    · rename_i hsource _ _
      obtain ⟨i, -, hi⟩ := List.mem_flatMap.mp hx
      obtain ⟨s, hs, rfl⟩ := List.mem_map.mp hi
      exact ⟨hsource, hs⟩
    · cases hx
  · cases hx

section Statement

variable {file : Path} {fileModule : String} {source : Package} {i : Import}

lemma target?_of_climbing (h : absoluteModule? fileModule file i = none) (s : Symbol) :
    Occurrence.target? o.tree ⟨file, fileModule, source, i, s⟩ = none := by
  have hmodule : Occurrence.module? ⟨file, fileModule, source, i, s⟩ = none := h
  rw [Occurrence.target?, hmodule]
  rfl

lemma target?_of_module {module : String} (h : absoluteModule? fileModule file i = some module)
    (s : Symbol) : Occurrence.target? o.tree ⟨file, fileModule, source, i, s⟩ =
      o.target? (s.qualify module) := by
  have hmodule : Occurrence.module? ⟨file, fileModule, source, i, s⟩ = some module := h
  rw [Occurrence.target?, hmodule]
  rfl

lemma edge?_of_target?_none {x : Occurrence} {tree : PackageTree} (h : x.target? tree = none) :
    x.edge? tree = none := by
  rw [Occurrence.edge?, h]
  cases x.module? <;> rfl

lemma edge?_of_module {module : String} (h : absoluteModule? fileModule file i = some module)
    {s : Symbol} {p : Package} (hp : o.target? (s.qualify module) = some p) :
    Occurrence.edge? o.tree ⟨file, fileModule, source, i, s⟩ =
      if p.id = source.id then none else some (edge file source i (module, s, p)) := by
  have hmodule : Occurrence.module? ⟨file, fileModule, source, i, s⟩ = some module := h
  rw [Occurrence.edge?, target?_of_module h, hmodule, hp]
  rfl

lemma targets_spec (o : GraphOptions) (file : Path) (fileModule : String) (source : Package)
    (i : Import) :
    ((o.targets fileModule file i).filter (·.2.2.id ≠ source.id)).map (edge file source i) =
      (i.names.symbols.map fun s => ⟨file, fileModule, source, i, s⟩).filterMap
        (Occurrence.edge? o.tree) ∧
    (o.targets fileModule file i).length =
      (i.names.symbols.map fun s => (⟨file, fileModule, source, i, s⟩ : Occurrence)).countP
        fun x => (x.target? o.tree).isSome := by
  cases h : absoluteModule? fileModule file i with
  | none =>
    simp [targets, h, List.filterMap_map, List.countP_map, Function.comp_def,
      target?_of_climbing h, edge?_of_target?_none (target?_of_climbing h _)]
  | some module =>
    rw [targets, h]
    dsimp only
    induction i.names.symbols with
    | nil => exact ⟨rfl, rfl⟩
    | cons s symbols ih =>
      obtain ⟨hedges, hcount⟩ := ih
      rw [List.map_cons, List.countP_cons, ← hcount]
      cases hp : o.target? (s.qualify module) with
      | none =>
        have hnone : Occurrence.target? o.tree ⟨file, fileModule, source, i, s⟩ = none :=
          (target?_of_module h s).trans hp
        rw [List.filterMap_cons_none (by rw [hp]; rfl), hedges,
          List.filterMap_cons_none (edge?_of_target?_none hnone), hnone]
        exact ⟨rfl, rfl⟩
      | some p =>
        have hsome : Occurrence.target? o.tree ⟨file, fileModule, source, i, s⟩ = some p :=
          (target?_of_module h s).trans hp
        rw [List.filterMap_cons_some (b := (module, s, p)) (by rw [hp]; rfl), hsome]
        refine ⟨?_, rfl⟩
        -- a target is counted in either case, but only another package gives an edge
        by_cases hself : p.id = source.id
        · rw [List.filter_cons_of_neg (by simpa using hself), hedges, List.filterMap_cons_none]
          rw [edge?_of_module h hp, if_pos hself]
        · rw [List.filter_cons_of_pos (by simpa using hself), List.map_cons, hedges,
            List.filterMap_cons_some]
          rw [edge?_of_module h hp, if_neg hself]

end Statement

/-- The graph of one file: an edge for each occurrence that has one, and a count of those that
resolve. -/
lemma ofFile_spec (o : GraphOptions) (f : SourceFile) :
    (o.ofFile f).edges = (o.occurrencesOf f).filterMap (Occurrence.edge? o.tree) ∧
    (o.ofFile f).firstPartyImports =
      (o.occurrencesOf f).countP fun x => (x.target? o.tree).isSome := by
  rw [ofFile, occurrencesOf]
  cases o.extractor.handles f.path with
  | false => exact ⟨rfl, rfl⟩
  | true =>
    cases o.tree.resolve? f.path with
    | none => exact ⟨rfl, rfl⟩
    | some source =>
      cases Module.ofFile? o.sourceRoots f.path with
      | none => exact ⟨rfl, rfl⟩
      | some fileModule =>
        cases o.extractor.imports o.ignoreTypeChecking f.content with
        | error e => exact ⟨rfl, rfl⟩
        | ok imports =>
          simp only [Bool.not_true, Bool.false_eq_true, if_false, if_true]
          induction imports with
          | nil => exact ⟨rfl, rfl⟩
          | cons i imports ih =>
            obtain ⟨hedges, hcount⟩ := ih
            obtain ⟨hedges', hcount'⟩ := targets_spec o f.path fileModule source i
            simp only [List.map_cons, List.flatMap_cons, List.filterMap_append, List.countP_append,
              List.length_append, hedges, hcount, hedges', hcount', and_self]

lemma build_edges_perm (o : GraphOptions) (files : List SourceFile) :
    (o.build files).edges.Perm
      ((o.occurrences files).filterMap (Occurrence.edge? o.tree)) := by
  refine (Sorted.sort_perm _ _).trans (List.Perm.of_eq ?_)
  rw [occurrences, List.filterMap_flatMap, List.flatMap_map]
  exact List.flatMap_congr fun f _ => (ofFile_spec o f).1

lemma build_firstPartyImports (o : GraphOptions) (files : List SourceFile) :
    (o.build files).firstPartyImports =
      (o.occurrences files).countP fun x => (x.target? o.tree).isSome := by
  simp only [build, occurrences]
  induction files with
  | nil => rfl
  | cons f files ih =>
    rw [List.map_cons, List.foldr_cons, ih, List.flatMap_cons, List.countP_append,
      (ofFile_spec o f).2]

lemma edge?_of_target?_some {tree : PackageTree} {x : Occurrence} {p : Package}
    (h : x.target? tree = some p) :
    ∃ module, tree.resolveModule? (x.symbol.qualify module) = some p ∧
      x.edge? tree = if p.id = x.source.id then none
        else some (edge x.file x.source x.statement (module, x.symbol, p)) := by
  cases hmodule : x.module? with
  | none =>
    rw [Occurrence.target?, hmodule] at h
    cases h
  | some module =>
    refine ⟨module, ?_, ?_⟩
    · rw [Occurrence.target?, hmodule] at h
      change (if x.symbol.qualify module = "" then none
        else tree.resolveModule? (x.symbol.qualify module)) = some p at h
      split at h
      · cases h
      · exact h
    · rw [Occurrence.edge?, hmodule, h]
      rfl

/-- What resolves is either an edge or a self-import. -/
lemma countP_target? (tree : PackageTree) (xs : List Occurrence) :
    xs.countP (fun x => (x.target? tree).isSome) =
      (xs.filterMap (Occurrence.edge? tree)).length + xs.countP (Occurrence.isSelfImport tree) := by
  induction xs with
  | nil => rfl
  | cons x xs ih =>
    rw [List.countP_cons, List.countP_cons, ih, Occurrence.isSelfImport]
    cases htarget : x.target? tree with
    | none =>
      rw [List.filterMap_cons_none (edge?_of_target?_none htarget)]
      rfl
    | some p =>
      obtain ⟨module, -, hedge⟩ := edge?_of_target?_some htarget
      by_cases hself : p.id = x.source.id
      · rw [if_pos hself] at hedge
        rw [List.filterMap_cons_none hedge]
        simp [hself, Nat.add_assoc]
      · rw [if_neg hself] at hedge
        rw [List.filterMap_cons_some hedge]
        simp [hself]
        omega

lemma edge_sound {files : List SourceFile} {e : Edge} (he : e ∈ (o.build files).edges) :
    ∃ source target, o.tree.resolve? e.file = some source ∧
      o.tree.resolveModule? e.qualified = some target ∧ e.fromPackage = source.id ∧
      e.toPackage = target.id ∧ source.id ≠ target.id := by
  obtain ⟨x, hx, hedge⟩ := List.mem_filterMap.mp ((build_edges_perm o files).mem_iff.mp he)
  cases htarget : x.target? o.tree with
  | none =>
    rw [edge?_of_target?_none htarget] at hedge
    cases hedge
  | some p =>
    obtain ⟨module, hresolve, heq⟩ := edge?_of_target?_some htarget
    rw [heq] at hedge
    split at hedge
    · cases hedge
    · rename_i hother
      cases hedge
      exact ⟨x.source, p, (of_mem_occurrences hx).1, hresolve, rfl, rfl,
        fun h => hother h.symm⟩

lemma missing?_eq_none {declarations : List Declaration} (ht : o.tree.Represents declarations)
    {files : List SourceFile} {e : Edge} (he : e ∈ (o.build files).edges) :
    o.tree.missing? e = none := by
  obtain ⟨source, target, hsource, htarget, hfrom, hto, -⟩ := edge_sound he
  refine PackageTree.missing?_eq_none_iff.mpr
    ⟨source, target, PackageTree.ends_eq_ok_iff.mpr ⟨?_, ?_⟩⟩
  · rw [hfrom]
    exact ht.get?_id (PackageTree.resolve?_mem hsource)
  · rw [hto]
    exact ht.get?_id (PackageTree.resolveModule?_mem htarget)

end GraphOptions

namespace Report

lemma exists_section {tree : PackageTree} {other : Edge → PackageId} {edges : List Edge}
    (h : ∀ e ∈ edges, ∃ p, tree.get? (other e) = some p) (asked : Bool) :
    ∃ found, sectionIf asked (entries tree other edges) = .ok found := by
  have hentries : ∃ found, entries tree other edges = .ok found := by
    apply exists_mapM_ok
    intro e he
    obtain ⟨p, hp⟩ := h e he
    refine ⟨ReportEntry.ofEdge e p, ?_⟩
    rw [PackageTree.package, hp]
    rfl
  obtain ⟨found, hfound⟩ := hentries
  cases asked with
  | false => exact ⟨none, rfl⟩
  | true => exact ⟨some found, by rw [sectionIf, if_pos rfl, hfound]; rfl⟩

/-- Where edges name packages of the tree only, a report is refused for no other reason than an
empty selection or a root without a package. -/
lemma build_ne_check {graph : Graph} {tree : PackageTree}
    (h : ∀ e ∈ graph.edges, tree.missing? e = none) (root : Path) (sections : Sections)
    (cause : CheckError) : build graph tree root sections ≠ .error (.check cause) := by
  have hends := fun e he => PackageTree.exists_get?_of_missing? (h e he)
  simp only [build, bind, Except.bind]
  split
  · intro hfail
    cases hfail
  · cases tree.findByRoot? root with
    | none =>
      intro hfail
      cases hfail
    | some package =>
      obtain ⟨dependencies, hdependencies⟩ : ∃ found, sectionIf sections.dependencies
          (entries tree (·.toPackage) (graph.dependenciesOf package.id)) = .ok found :=
        exists_section (fun e he => (hends e (List.mem_of_mem_filter he)).2) _
      obtain ⟨usages, husages⟩ : ∃ found, sectionIf sections.usages
          (entries tree (·.fromPackage) (graph.usagesOf package.id)) = .ok found :=
        exists_section (fun e he => (hends e (List.mem_of_mem_filter he)).1) _
      dsimp only
      rw [hdependencies, husages]
      intro hfail
      cases hfail

end Report

/-- A graph has the edges that its files ask for, and no others. An edge leads from the package of
its file to another one, which owns the imported name; every occurrence that resolves to another
package gives one edge, and the others are self-imports or lead nowhere. Checks, synchronisations and
reports never meet an unknown package on such a graph. -/
theorem GraphOptions.build_exact {o : GraphOptions} {declarations : List Declaration}
    {sourceRoots : List Path} (hbuild : PackageTree.build declarations sourceRoots = .ok o.tree)
    (files : List SourceFile) :
    (∀ e ∈ (o.build files).edges,
      (o.tree.resolve? e.file).map (·.id) = some e.fromPackage ∧
      (o.tree.resolveModule? e.qualified).map (·.id) = some e.toPackage ∧
      e.fromPackage ≠ e.toPackage) ∧
    (o.build files).edges.Perm ((o.occurrences files).filterMap (Occurrence.edge? o.tree)) ∧
    (o.build files).edges.length ≤ (o.build files).firstPartyImports ∧
    (o.build files).firstPartyImports - (o.build files).edges.length =
      (o.occurrences files).countP (Occurrence.isSelfImport o.tree) ∧
    (∀ set, ∃ found, check (o.build files) o.tree set = .ok found) ∧
    (∀ declared prune, ∃ patch, sync (o.build files) o.tree declared prune = .ok patch) ∧
    ∀ root sections cause,
      Report.build (o.build files) o.tree root sections ≠ .error (.check cause) := by
  have ht := PackageTree.build_represents hbuild
  have hperm := o.build_edges_perm files
  have hknown : ∀ e ∈ (o.build files).edges, o.tree.missing? e = none :=
    fun e he => GraphOptions.missing?_eq_none ht he
  have hactive : (o.build files).activeEdges.findSome? o.tree.missing? = none := by
    rw [List.findSome?_eq_none_iff]
    intro e he
    exact hknown e (List.mem_of_mem_filter he)
  have hcount : (o.build files).firstPartyImports = (o.build files).edges.length +
      (o.occurrences files).countP (Occurrence.isSelfImport o.tree) := by
    rw [o.build_firstPartyImports, GraphOptions.countP_target?, hperm.length_eq]
  refine ⟨?_, hperm, ?_, ?_, ?_, ?_, ?_⟩
  · intro e he
    obtain ⟨source, target, hsource, htarget, hfrom, hto, hne⟩ := GraphOptions.edge_sound he
    rw [hsource, htarget, hfrom, hto]
    exact ⟨rfl, rfl, hne⟩
  · omega
  · omega
  · intro set
    exact ⟨_, check_eq_ok set hactive⟩
  · exact sync_eq_ok hactive
  · exact Report.build_ne_check hknown

namespace Sample

/-- A source that is not blank imports two names from the module it names, and all of its own
package. -/
def extractor : Extractor where
  extensions := ["py"]
  entryModule := "__init__"
  imports _ content :=
    if content = "" then .error ⟨1, 1, "nothing to read"⟩
    else .ok [⟨1, 1, 0, content, .names ["Session", "Helper"], false, none⟩,
      ⟨2, 1, 1, "", .wildcard, false, none⟩]
  publicNames _ := .ok none

def options : GraphOptions :=
  ⟨tree, extractor, [⟨"."⟩], false⟩

/-- Two files that import, one that does not parse, and one of another language. -/
def files : List SourceFile :=
  [⟨⟨"db/b.py"⟩, "os"⟩, ⟨⟨"core/a.py"⟩, "db"⟩, ⟨⟨"core/c.py"⟩, ""⟩, ⟨⟨"core/d.txt"⟩, "db"⟩]

lemma byModule_eq : options.tree.byModule = options.tree.packages := by
  apply List.mergeSort_of_pairwise
  decide +kernel

end Sample

theorem GraphOptions.build_exact_sample :
    PackageTree.build Sample.declarations [⟨"."⟩] = .ok Sample.options.tree ∧
    (Sample.options.build Sample.files).edges.Perm
      [⟨⟨"core/a.py"⟩, 1, 1, 0, 1, "db", .name "Session", false, none⟩,
        ⟨⟨"core/a.py"⟩, 1, 1, 0, 1, "db", .name "Helper", false, none⟩] ∧
    (Sample.options.build Sample.files).firstPartyImports = 4 := by
  obtain ⟨-, hperm, hle, hself, -⟩ :=
    GraphOptions.build_exact (o := Sample.options) Sample.build_eq Sample.files
  have hedges : (Sample.options.occurrences Sample.files).filterMap
      (Occurrence.edge? Sample.options.tree) =
        [⟨⟨"core/a.py"⟩, 1, 1, 0, 1, "db", .name "Session", false, none⟩,
          ⟨⟨"core/a.py"⟩, 1, 1, 0, 1, "db", .name "Helper", false, none⟩] := by
    unfold Occurrence.edge? Occurrence.target? PackageTree.resolveModule?
    rw [Sample.byModule_eq]
    decide +kernel
  have hcount : (Sample.options.occurrences Sample.files).countP
      (Occurrence.isSelfImport Sample.options.tree) = 2 := by
    unfold Occurrence.isSelfImport Occurrence.target? PackageTree.resolveModule?
    rw [Sample.byModule_eq]
    decide +kernel
  rw [hedges] at hperm
  have hlength : (Sample.options.build Sample.files).edges.length = 2 := hperm.length_eq
  refine ⟨Sample.build_eq, hperm, ?_⟩
  omega

end ImportFence
