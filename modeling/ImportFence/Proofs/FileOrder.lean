import ImportFence.Proofs.ImportGraph
import ImportFence.Proofs.Paths
import Mathlib.Algebra.GroupWithZero.Nat

/-!
# Files are read in isolation

What a file adds to a graph depends on the file alone: the edges and warnings that name it are those
of the graph of that file, in the same order. Files with different paths never share a place in the
order of edges, so that the order in which files are given does not matter, not even for edges that
tie.
-/

namespace ImportFence

/-- No two files have the same components. -/
def DistinctPaths (files : List SourceFile) : Prop :=
  files.Pairwise fun f g => f.path.same g.path = false

instance (files : List SourceFile) : Decidable (DistinctPaths files) :=
  inferInstanceAs (Decidable (files.Pairwise _))

/-- Records that files give, each with the path of its file, under an order in which only records
of one path tie. -/
structure FileRecords (β : Type) where
  of : SourceFile → List β
  file : β → Path
  compare : β → β → Ordering
  trans : Std.TransCmp compare
  file_of_mem : ∀ f, ∀ b ∈ of f, file b = f.path
  same_of_tie : ∀ a b, compare a b = .eq → (file b).same (file a) = true

lemma filter_flatMap_of_source {α β : Type} {xs : List α} {f : α → List β} {p : β → Bool}
    {q : α → Bool} (h : ∀ x ∈ xs, ∀ b ∈ f x, p b = q x) :
    (xs.flatMap f).filter p = (xs.filter q).flatMap f := by
  induction xs with
  | nil => rfl
  | cons x xs ih =>
    obtain ⟨hx, hxs⟩ := List.forall_mem_cons.mp h
    rw [List.flatMap_cons, List.filter_append, ih hxs, List.filter_cons]
    cases hq : q x with
    | true =>
      rw [List.filter_eq_self.mpr fun b hb => (hx b hb).trans hq]
      rfl
    | false =>
      rw [List.filter_eq_nil_iff.mpr fun b hb => by simp [(hx b hb).trans hq]]
      rfl

namespace DistinctPaths

variable {files files' : List SourceFile}

lemma filter_cases (h : DistinctPaths files) (p : Path) :
    (files.filter fun f => f.path.same p) = [] ∨
      ∃ f, (files.filter fun f => f.path.same p) = [f] := by
  have hpairs : (files.filter fun f => f.path.same p).Pairwise fun f g =>
      f.path.same g.path = false := h.filter _
  have hall : ∀ f ∈ files.filter fun f => f.path.same p, f.path.components = p.components :=
    fun f hf => Path.same_iff.mp (List.mem_filter.mp hf).2
  rcases hfound : files.filter fun f => f.path.same p with _ | ⟨f, _ | ⟨g, rest⟩⟩
  · exact Or.inl hfound
  · exact Or.inr ⟨f, hfound⟩
  · rw [hfound] at hpairs hall
    have hne := (List.pairwise_cons.mp hpairs).1 g List.mem_cons_self
    have hf := hall f List.mem_cons_self
    have hg := hall g (List.mem_cons_of_mem f List.mem_cons_self)
    rw [Path.same_iff.mpr (hf.trans hg.symm)] at hne
    cases hne

lemma filter_eq_singleton (h : DistinctPaths files) {f : SourceFile} (hf : f ∈ files) :
    (files.filter fun g => g.path.same f.path) = [f] := by
  have hmem : f ∈ files.filter fun g => g.path.same f.path :=
    List.mem_filter.mpr ⟨hf, Path.same_iff.mpr rfl⟩
  obtain hnone | ⟨g, hg⟩ := h.filter_cases f.path
  · rw [hnone] at hmem
    cases hmem
  · rw [hg] at hmem ⊢
    rw [List.mem_singleton.mp hmem]

lemma filter_eq_of_perm (h : DistinctPaths files) (hperm : files'.Perm files) (p : Path) :
    (files'.filter fun f => f.path.same p) = files.filter fun f => f.path.same p := by
  have hfilter := hperm.filter fun f => f.path.same p
  obtain hnone | ⟨f, hf⟩ := h.filter_cases p
  · rw [hnone] at hfilter ⊢
    exact hfilter.eq_nil
  · rw [hf] at hfilter ⊢
    exact List.perm_singleton.mp hfilter

end DistinctPaths

namespace FileRecords

variable {β : Type} (r : FileRecords β) {files files' : List SourceFile}

/-- The records of files, sorted. -/
def sorted (files : List SourceFile) : List β :=
  Sorted.sort r.compare (files.flatMap r.of)

lemma filter_flatMap (files : List SourceFile) (p : Path) :
    (files.flatMap r.of).filter (fun b => (r.file b).same p) =
      (files.filter fun f => f.path.same p).flatMap r.of := by
  apply filter_flatMap_of_source
  intro f _ b hb
  rw [r.file_of_mem f b hb]

/-- The sorted records that name a file are those of the file alone. -/
lemma filter_sorted (h : DistinctPaths files) {f : SourceFile} (hf : f ∈ files) :
    (r.sorted files).filter (fun b => (r.file b).same f.path) = r.sorted [f] := by
  have := r.trans
  rw [sorted, Sorted.filter_sort, r.filter_flatMap, h.filter_eq_singleton hf, sorted]

/-- Records that tie come from one file, so that the order of files does not show. -/
lemma sorted_perm (h : DistinctPaths files) (hperm : files'.Perm files) :
    r.sorted files' = r.sorted files := by
  have := r.trans
  refine Sorted.sort_congr fun a => ?_
  have hties : ∀ bs : List β, bs.filter (fun b => r.compare a b = .eq) =
      (bs.filter fun b => (r.file b).same (r.file a)).filter fun b => r.compare a b = .eq := by
    intro bs
    rw [List.filter_filter]
    refine List.filter_congr fun b _ => ?_
    by_cases htie : r.compare a b = .eq
    · simp [htie, r.same_of_tie a b htie]
    · simp [htie]
  rw [hties, hties (files.flatMap r.of), r.filter_flatMap, r.filter_flatMap,
    h.filter_eq_of_perm hperm]

end FileRecords

namespace GraphOptions

variable {o : GraphOptions} {files files' : List SourceFile} {f : SourceFile}

/-- The edges that files give. -/
def edgeRecords (o : GraphOptions) : FileRecords Edge where
  of f := (o.ofFile f).edges
  file := Edge.file
  compare := Edge.compare
  trans := inferInstance
  file_of_mem := by
    intro f e he
    rw [ofFile] at he
    split at he
    · cases he
    split at he
    · split at he
      · cases he
      · obtain ⟨found, -, hfound⟩ := List.mem_flatMap.mp he
        obtain ⟨t, -, rfl⟩ := List.mem_map.mp hfound
        rfl
    · cases he
  same_of_tie := by
    intro a b h
    have hfile := (Ordering.then_eq_eq.mp h).1
    rw [Path.same_iff, ← Path.same_iff.mp (Path.compare_eq_iff.mp hfile)]

def warningRecords (o : GraphOptions) : FileRecords Warning where
  of f := (o.ofFile f).warnings
  file := Warning.file
  compare := Warning.compare
  trans := inferInstance
  file_of_mem := by
    intro f w hw
    rw [ofFile] at hw
    split at hw
    · cases hw
    split at hw
    · split at hw
      · rw [List.mem_singleton.mp hw]
      · cases hw
    · cases hw
  same_of_tie := by
    intro a b h
    rw [Path.same_iff, ← Path.same_iff.mp (Path.compare_eq_iff.mp h)]

lemma build_edges (o : GraphOptions) (files : List SourceFile) :
    (o.build files).edges = o.edgeRecords.sorted files := by
  simp only [build, List.flatMap_map]
  rfl

lemma build_warnings (o : GraphOptions) (files : List SourceFile) :
    (o.build files).warnings = o.warningRecords.sorted files := by
  simp only [build, List.flatMap_map]
  rfl

lemma build_filesAnalyzed (o : GraphOptions) (files : List SourceFile) :
    (o.build files).filesAnalyzed =
      (files.map fun f => (o.build [f]).filesAnalyzed).sum := by
  induction files with
  | nil => rfl
  | cons f files ih =>
    rw [List.map_cons, List.sum_cons, ← ih]
    rfl

lemma build_firstPartyImports_sum (o : GraphOptions) (files : List SourceFile) :
    (o.build files).firstPartyImports =
      (files.map fun f => (o.build [f]).firstPartyImports).sum := by
  induction files with
  | nil => rfl
  | cons f files ih =>
    rw [List.map_cons, List.sum_cons, ← ih]
    rfl

/-- A file that should be read but does not parse. -/
structure Fails (o : GraphOptions) (f : SourceFile) (e : ParseError) : Prop where
  handled : o.extractor.handles f.path = true
  owned : ∃ p, o.tree.resolve? f.path = some p
  placed : ∃ m, Module.ofFile? o.sourceRoots f.path = some m
  refused : o.extractor.imports o.ignoreTypeChecking f.content = .error e

lemma Fails.ofFile_eq {e : ParseError} (h : o.Fails f e) :
    o.ofFile f = { Graph.empty with warnings := [⟨f.path, e.message⟩] } := by
  obtain ⟨p, hp⟩ := h.owned
  obtain ⟨m, hm⟩ := h.placed
  rw [ofFile, h.handled, hp, hm, h.refused]
  rfl

lemma Fails.build_edges_filter {e : ParseError} (h : o.Fails f e) (files : List SourceFile) :
    (o.build (files.filter (· ≠ f))).edges = (o.build files).edges := by
  rw [build_edges, build_edges, FileRecords.sorted, FileRecords.sorted]
  congr 1
  induction files with
  | nil => rfl
  | cons g files ih =>
    by_cases hg : g = f
    · have hnone : o.edgeRecords.of f = [] := by
        change (o.ofFile f).edges = []
        rw [h.ofFile_eq]
        rfl
      rw [List.filter_cons_of_neg (by simpa using hg), List.flatMap_cons, ih, hg, hnone]
      rfl
    · rw [List.filter_cons_of_pos (by simpa using hg), List.flatMap_cons, List.flatMap_cons, ih]

lemma build_perm (h : DistinctPaths files) (hperm : files'.Perm files) :
    o.build files' = o.build files := by
  have hedges : (o.build files').edges = (o.build files).edges := by
    rw [build_edges, build_edges]
    exact o.edgeRecords.sorted_perm h hperm
  have hwarnings : (o.build files').warnings = (o.build files).warnings := by
    rw [build_warnings, build_warnings]
    exact o.warningRecords.sorted_perm h hperm
  have hfiles : (o.build files').filesAnalyzed = (o.build files).filesAnalyzed := by
    rw [build_filesAnalyzed, build_filesAnalyzed]
    exact (hperm.map _).sum_nat
  have himports : (o.build files').firstPartyImports = (o.build files).firstPartyImports := by
    rw [build_firstPartyImports_sum, build_firstPartyImports_sum]
    exact (hperm.map _).sum_nat
  cases hgraph : o.build files
  cases hgraph' : o.build files'
  simp_all

/-- Files are read in isolation and their order is irrelevant. The edges and warnings of a file are
those of the file alone, and counts add up; a file that does not parse gives one warning and
otherwise changes nothing; any order of the files gives the same graph. -/
theorem build_isolated (o : GraphOptions) (h : DistinctPaths files) :
    (∀ f ∈ files,
      (o.build files).edges.filter (·.file.same f.path) = (o.build [f]).edges ∧
      (o.build files).warnings.filter (·.file.same f.path) = (o.build [f]).warnings) ∧
    (o.build files).filesAnalyzed = (files.map fun f => (o.build [f]).filesAnalyzed).sum ∧
    (o.build files).firstPartyImports =
      (files.map fun f => (o.build [f]).firstPartyImports).sum ∧
    (∀ f ∈ files, ∀ e, o.Fails f e →
      (o.build files).warnings.filter (·.file.same f.path) = [⟨f.path, e.message⟩] ∧
      (o.build files).edges.filter (·.file.same f.path) = [] ∧
      (o.build (files.filter (· ≠ f))).edges = (o.build files).edges) ∧
    (o.build files).edges.Pairwise (fun a b => (a.compare b).isLE) ∧
    (o.build files).warnings.Pairwise (fun a b => (a.compare b).isLE) ∧
    ∀ files', files'.Perm files → o.build files' = o.build files := by
  have halone : ∀ f ∈ files,
      (o.build files).edges.filter (·.file.same f.path) = (o.build [f]).edges ∧
      (o.build files).warnings.filter (·.file.same f.path) = (o.build [f]).warnings := by
    intro f hf
    rw [build_edges, build_edges, build_warnings, build_warnings]
    exact ⟨o.edgeRecords.filter_sorted h hf, o.warningRecords.filter_sorted h hf⟩
  refine ⟨halone, o.build_filesAnalyzed files, o.build_firstPartyImports_sum files, ?_,
    Sorted.sort_pairwise Edge.compare _, Sorted.sort_pairwise Warning.compare _,
    fun files' hperm => build_perm h hperm⟩
  intro f hf e hfails
  obtain ⟨hedges, hwarnings⟩ := halone f hf
  refine ⟨?_, ?_, hfails.build_edges_filter files⟩
  · rw [hwarnings]
    simp [build, hfails.ofFile_eq, Sorted.sort]
  · rw [hedges]
    simp [build, hfails.ofFile_eq, Sorted.sort, Graph.empty]

end GraphOptions

namespace Sample

/-- A source that is not blank imports two submodules of the module it names in one statement. -/
def moduleExtractor : Extractor where
  extensions := ["py"]
  entryModule := "__init__"
  imports _ content :=
    if content = "" then .error ⟨1, 1, "nothing to read"⟩
    else .ok [⟨1, 1, 0, content ++ ".b", .wildcard, false, none⟩,
      ⟨1, 1, 0, content ++ ".a", .wildcard, false, none⟩]
  publicNames _ := .ok none

def moduleOptions : GraphOptions :=
  ⟨tree, moduleExtractor, [⟨"."⟩], false⟩

lemma fails : moduleOptions.Fails ⟨⟨"core/c.py"⟩, ""⟩ ⟨1, 1, "nothing to read"⟩ :=
  ⟨by decide +kernel, ⟨_, rfl⟩, ⟨"core.c", by decide +kernel⟩, rfl⟩

end Sample

theorem GraphOptions.build_isolated_sample :
    DistinctPaths Sample.files ∧
    Sample.moduleOptions.Fails ⟨⟨"core/c.py"⟩, ""⟩ ⟨1, 1, "nothing to read"⟩ ∧
    (Sample.moduleOptions.build Sample.files).warnings.filter (·.file.same ⟨"core/c.py"⟩) =
      [⟨⟨"core/c.py"⟩, "syntax error at 1:1: nothing to read"⟩] ∧
    Sample.moduleOptions.build Sample.files.reverse = Sample.moduleOptions.build Sample.files := by
  have hdistinct : DistinctPaths Sample.files := by decide +kernel
  obtain ⟨-, -, -, hfails, -, -, hperm⟩ :=
    GraphOptions.build_isolated Sample.moduleOptions hdistinct
  obtain ⟨hwarning, -, -⟩ := hfails _ (by decide) _ Sample.fails
  exact ⟨hdistinct, Sample.fails, hwarning, hperm _ (List.reverse_perm _)⟩

end ImportFence
