import ImportFence.Proofs.PrunedSearch
import ImportFence.Proofs.Sorted

/-!
# What is found, file by file

A file is kept or not by its own path. The sources, warnings and packages of a project are those of
its kept files, each list ascending and without repetitions, and the interface of a package is the
one that the entry module beside its configuration declares.
-/

namespace ImportFence
open Traversal Std

/-- A file below a directory that is kept, by its own path: no name on the way is hidden or
excluded, and no beginning of the path is excluded as a whole. -/
structure Kept (t : FileTree) (root : Place) (excludeHidden : Bool) (patterns : List Glob)
    (rel : Place) (content : Content) : Prop where
  stands : ∃ executable, t.get? (root ++ rel) = some (.file ⟨content, executable⟩)
  visible : excludeHidden = true → ∀ n ∈ rel, n.toList.head? ≠ some '.'
  names : ∀ g ∈ patterns, ∀ n ∈ rel, g.matchesText n = false
  wholes : ∀ g ∈ patterns, ∀ outer, outer <+: rel → outer ≠ [] →
    g.matchesText (Text.join "/" outer) = false

/-- A file of the name is read as a source. -/
structure Extractor.Reads (x : Extractor) (n : String) : Prop where
  handles : x.handles ⟨n⟩ = true
  not_package : n ≠ packageFileName

/-- What a file with a name and a content in a directory is to a search. -/
inductive FoundAt (x : Extractor) (dir : Place) (n : String) : Content → Found → Prop
  | package {text : String} {config : PackageConfig} (hn : n = packageFileName)
      (h : PackageConfig.parse text none = .ok config) :
      FoundAt x dir n (.text text) (.package dir.path config)
  | source {text : String} (h : x.Reads n) :
      FoundAt x dir n (.text text) (.source ⟨Place.path (dir ++ [n]), text⟩)
  | undecodable {lines : List String} (h : x.Reads n) :
      FoundAt x dir n (.undecodable lines) (.undecodable (Place.path (dir ++ [n])))

/-- Two things of a kind have different paths. -/
def Found.Apart : Found → Found → Prop
  | .source f, .source g => Path.compare f.path g.path ≠ .eq
  | .package p _, .package q _ => Path.compare p q ≠ .eq
  | .undecodable p, .undecodable q => Path.compare p q ≠ .eq
  | _, _ => True

lemma FoundAt.apart {x : Extractor} {dir dir' : Place} {n n' : String} {content content' : Content}
    {found found' : Found} (h : FoundAt x dir n content found)
    (h' : FoundAt x dir' n' content' found') (hnames : ∀ m ∈ dir ++ [n], Path.IsName m)
    (hnames' : ∀ m ∈ dir' ++ [n'], Path.IsName m) (hne : dir ++ [n] ≠ dir' ++ [n']) :
    found.Apart found' := by
  have hpaths : ∀ {rel rel' : Place}, (∀ m ∈ rel, Path.IsName m) → (∀ m ∈ rel', Path.IsName m) →
      rel ≠ rel' → Path.compare rel.path rel'.path ≠ .eq := by
    intro rel rel' hrel hrel' hother heq
    rw [Path.compare_eq_iff, Path.same_iff] at heq
    exact hother (Place.path_injective hrel hrel' heq)
  cases h with
  | package hn _ =>
    cases h' with
    | package hn' _ =>
      refine hpaths (fun m hm => hnames m (by simp [hm])) (fun m hm => hnames' m (by simp [hm])) ?_
      rintro rfl
      exact hne (by rw [hn, hn'])
    | source _ => trivial
    | undecodable _ => trivial
  | source _ =>
    cases h' with
    | package _ _ => trivial
    | source _ => exact hpaths hnames hnames' hne
    | undecodable _ => trivial
  | undecodable _ =>
    cases h' with
    | package _ _ => trivial
    | source _ => trivial
    | undecodable _ => exact hpaths hnames hnames' hne

lemma PackageConfig.parse_eq_ok_iff {text : String} {file : Option Path} {c : PackageConfig} :
    parse text file = .ok c ↔ parse text none = .ok c := by
  rw [parse, parse, mapError_eq_ok_iff, mapError_eq_ok_iff]

lemma Traversal.filterMap_of_mapM_ok {ε α β : Type} {f : α → Except ε (Option β)} {xs : List α}
    {ys : List (Option β)} (h : xs.mapM f = .ok ys) :
    (∀ x ∈ xs, ∃ y, f x = .ok y) ∧ ys.filterMap id = xs.filterMap fun x => (f x).toOption.join := by
  induction xs generalizing ys with
  | nil =>
    cases h
    simp
  | cons x xs ih =>
    rw [List.mapM_cons] at h
    obtain ⟨y, hy, h⟩ := bind_eq_ok_iff.mp h
    obtain ⟨rest, hrest, h⟩ := bind_eq_ok_iff.mp h
    cases h
    obtain ⟨hall, hfound⟩ := ih hrest
    refine ⟨List.forall_mem_cons.mpr ⟨⟨y, hy⟩, hall⟩, ?_⟩
    rw [List.filterMap_cons, List.filterMap_cons, hfound, hy]
    rfl

lemma Sorted.ascending_sort_filterMap {α β : Type} {cmp : β → β → Ordering} [TransCmp cmp]
    {xs : List α} {pick : α → Option β} {R : α → α → Prop} (hxs : xs.Pairwise R)
    (h : ∀ a ∈ xs, ∀ b ∈ xs, R a b → ∀ x ∈ pick a, ∀ y ∈ pick b, cmp x y ≠ .eq) :
    Ascending cmp (sort cmp (xs.filterMap pick)) := by
  have hdistinct : (xs.filterMap pick).Pairwise fun x y => cmp x y ≠ .eq := by
    rw [List.pairwise_filterMap]
    refine hxs.imp_of_mem ?_
    intro a b ha hb hab x hx y hy
    exact h a ha b hb hab x hx y hy
  have hsorted := ((sort_perm cmp _).pairwise_iff
    fun hne heq => hne (OrientedCmp.eq_symm heq)).mpr hdistinct
  refine (sort_pairwise cmp _).imp₂ ?_ hsorted
  intro x y hle hne
  cases hxy : cmp x y with
  | lt => rfl
  | eq => exact absurd hxy hne
  | gt => simp [hxy] at hle

namespace Search

variable {s : Search} {d : Disk} {root rel : Place} {entries : List (Place × Entry)}

/-- What an entry is found to be, failures apart. -/
def found? (s : Search) (x : Place × Entry) : Option Found :=
  (s.examine x).toOption.join

lemma examine_concat {n : String} (hn : Path.IsName n) (dir : Place) (content : Content)
    (executable : Bool) :
    s.examine (dir ++ [n], .file ⟨content, executable⟩) =
      if n = packageFileName then
        match content with
        | .text text => (PackageConfig.parse text (some (s.shown (dir ++ [n])))).map fun config =>
            some (.package dir.path config)
        | .undecodable _ => .error (.access (s.shown (dir ++ [n])) .invalidText)
      else if s.extractor.handles ⟨n⟩ = true then
        match content with
        | .text text => .ok (some (.source ⟨Place.path (dir ++ [n]), text⟩))
        | .undecodable _ => .ok (some (.undecodable (Place.path (dir ++ [n]))))
      else .ok none := by
  have hname : (s.shown (dir ++ [n])).fileName? = some n := by
    rw [shown_concat, Path.fileName?_join_name _ hn]
  rw [examine]
  dsimp only
  rw [classify, hname, handles_shown hn, List.dropLast_concat]
  simp only [Option.some.injEq]
  split
  · cases content with
    | text text => cases PackageConfig.parse text (some (s.shown (dir ++ [n]))) <;> rfl
    | undecodable lines => rfl
  · rfl

lemma found?_eq_some_iff {x : Place × Entry} {found : Found} :
    s.found? x = some found ↔ s.examine x = .ok (some found) := by
  rw [found?]
  cases s.examine x with
  | error e => simp [Except.toOption]
  | ok y => simp [Except.toOption]

lemma examine_eq_ok_some_iff {n : String} (hn : Path.IsName n) {dir : Place} {content : Content}
    {executable : Bool} {found : Found} :
    s.examine (dir ++ [n], .file ⟨content, executable⟩) = .ok (some found) ↔
      FoundAt s.extractor dir n content found := by
  rw [examine_concat hn]
  constructor
  · intro h
    split at h
    · rename_i hpackage
      split at h
      · obtain ⟨config, hconfig, hfound⟩ := map_eq_ok_iff.mp h
        cases hfound
        exact .package hpackage (PackageConfig.parse_eq_ok_iff.mp hconfig)
      · cases h
    · rename_i hpackage
      split at h
      · rename_i hhandles
        split at h
        · cases h
          exact .source ⟨hhandles, hpackage⟩
        · cases h
          exact .undecodable ⟨hhandles, hpackage⟩
      · cases h
  · intro h
    cases h with
    | package hpackage hconfig =>
      rw [if_pos hpackage]
      exact map_eq_ok_iff.mpr ⟨_, PackageConfig.parse_eq_ok_iff.mpr hconfig, rfl⟩
    | source hreads => rw [if_neg hreads.not_package, if_pos hreads.handles]
    | undecodable hreads => rw [if_neg hreads.not_package, if_pos hreads.handles]

lemma run_eq_ok {found : Discovery} (h : s.run d = .ok found) :
    ∃ entries, s.visited d = .ok entries ∧ (∀ x ∈ entries, ∃ y, s.examine x = .ok y) ∧
      found.files = sources (entries.filterMap s.found?) ∧
      found.packages = s.declarations found.files (entries.filterMap s.found?) ∧
      found.warnings = warnings (entries.filterMap s.found?) := by
  cases hvisited : s.visited d with
  | error e =>
    rw [run, hvisited] at h
    cases h
  | ok entries =>
    rw [run_of_visited hvisited, mapError_eq_ok_iff, map_eq_ok_iff] at h
    obtain ⟨all, hall, rfl⟩ := h
    obtain ⟨ys, hys, rfl⟩ := map_eq_ok_iff.mp hall
    obtain ⟨hexamined, hfound⟩ := filterMap_of_mapM_ok hys
    have hsame : ys.filterMap id = entries.filterMap s.found? := hfound
    exact ⟨entries, rfl, hexamined, by rw [hsame], by rw [hsame], by rw [hsame]⟩

/-- A search in a directory of a disk without ignore files. -/
structure Plain (s : Search) (d : Disk) (root : Place) : Prop where
  wellFormed : d.tree.WellFormed
  rules : IgnoreFiles.Absent d
  located : d.locate s.root = .ok root
  directory : d.tree.get? root = some .directory

namespace Plain

lemma exists_mem_visited_iff (h : s.Plain d root) (hvisited : s.visited d = .ok entries)
    {content : Content} :
    (∃ executable, (rel, .file ⟨content, executable⟩) ∈ entries) ↔
      Kept d.tree root s.excludeHidden s.patterns rel content := by
  simp only [mem_visited_iff h.wellFormed h.rules h.located h.directory hvisited]
  constructor
  · rintro ⟨executable, -, hget, hall⟩
    obtain ⟨hvisible, hnames, hwholes⟩ :=
      (forall_excludes_iff fun n hn => h.wellFormed.isName hget hn).mp hall
    exact ⟨⟨executable, hget⟩, hvisible, hnames, hwholes⟩
  · rintro ⟨⟨executable, hget⟩, hvisible, hnames, hwholes⟩
    refine ⟨executable, ?_, hget, ?_⟩
    · rintro rfl
      rw [List.append_nil, h.directory] at hget
      cases hget
    · exact (forall_excludes_iff fun n hn => h.wellFormed.isName hget hn).mpr
        ⟨hvisible, hnames, hwholes⟩

lemma isName (h : s.Plain d root) {content : Content}
    (hkept : Kept d.tree root s.excludeHidden s.patterns rel content) {n : String} (hn : n ∈ rel) :
    Path.IsName n := by
  obtain ⟨executable, hget⟩ := hkept.stands
  exact h.wellFormed.isName hget hn

lemma examine_eq_ok_some_iff (h : s.Plain d root) (hvisited : s.visited d = .ok entries)
    {x : Place × Entry} (hx : x ∈ entries) {found : Found} :
    s.examine x = .ok (some found) ↔
      ∃ dir n content executable, x = (dir ++ [n], .file ⟨content, executable⟩) ∧
        FoundAt s.extractor dir n content found := by
  obtain ⟨rel, e⟩ := x
  obtain ⟨hne, hget, -⟩ :=
    (mem_visited_iff h.wellFormed h.rules h.located h.directory hvisited).mp hx
  have hname : ∀ {dir n}, rel = dir ++ [n] → Path.IsName n :=
    fun hrel => h.wellFormed.isName hget (by simp [hrel])
  constructor
  · intro hfound
    obtain ⟨dir, n, rfl⟩ := (List.eq_nil_or_concat' rel).resolve_left hne
    cases e with
    | directory => cases hfound
    | file f =>
      exact ⟨dir, n, f.content, f.executable, rfl,
        (Search.examine_eq_ok_some_iff (hname rfl)).mp hfound⟩
  · rintro ⟨dir, n, content, executable, hx, hfound⟩
    cases hx
    exact (Search.examine_eq_ok_some_iff (hname rfl)).mpr hfound

lemma pairwise_found (h : s.Plain d root) (hvisited : s.visited d = .ok entries) :
    (entries.filterMap s.found?).Pairwise Found.Apart := by
  rw [List.pairwise_filterMap]
  refine (pairwise_visited h.wellFormed h.rules h.located h.directory hvisited).imp_of_mem ?_
  intro x y hx hy hne found hfound found' hfound'
  rw [found?_eq_some_iff, h.examine_eq_ok_some_iff hvisited hx] at hfound
  rw [found?_eq_some_iff, h.examine_eq_ok_some_iff hvisited hy] at hfound'
  obtain ⟨dir, n, content, executable, rfl, hfound⟩ := hfound
  obtain ⟨dir', n', content', executable', rfl, hfound'⟩ := hfound'
  have hkept := (h.exists_mem_visited_iff hvisited).mp ⟨executable, hx⟩
  have hkept' := (h.exists_mem_visited_iff hvisited).mp ⟨executable', hy⟩
  exact hfound.apart hfound' (fun m => h.isName hkept) (fun m => h.isName hkept') hne

end Plain

/-! ### The three lists -/

variable {found : List Found}

lemma ascending_sources (h : found.Pairwise Found.Apart) :
    (sources found).Pairwise fun a b => Path.compare a.path b.path = .lt := by
  have := transCmp_key Path.compare SourceFile.path
  refine Sorted.ascending_sort_filterMap h ?_
  intro x _ y _ hapart a ha b hb
  cases x <;> cases ha
  cases y <;> cases hb
  exact hapart

lemma ascending_warnings (h : found.Pairwise Found.Apart) :
    (warnings found).Pairwise fun a b => Path.compare a.file b.file = .lt := by
  change Sorted.Ascending Warning.compare (Sorted.sort Warning.compare _)
  refine Sorted.ascending_sort_filterMap h ?_
  intro x _ y _ hapart a ha b hb
  cases x <;> cases ha
  cases y <;> cases hb
  exact hapart

lemma ascending_declarations (h : found.Pairwise Found.Apart) (files : List SourceFile) :
    (s.declarations files found).Pairwise fun a b => Path.compare a.root b.root = .lt := by
  have := transCmp_key Path.compare Declaration.root
  refine Sorted.ascending_sort_filterMap h ?_
  intro x _ y _ hapart a ha b hb
  cases x <;> cases ha
  cases y <;> cases hb
  exact hapart

end Search

/-! ### All that is found -/

/-- The declaration that the configuration of a package in a directory gives: the interface comes
from the entry module beside it. -/
structure Declaration.Stems (x : Extractor) (kept : Place → Content → Prop) (dir : Place)
    (text : String) (p : Declaration) : Prop where
  root_eq : p.root = dir.path
  config : ∃ config, PackageConfig.parse text none = .ok config ∧ p.tags = config.tags ∧
    p.strict = config.strict
  interface : ∀ names, p.publicNames = some names ↔ x.Reads x.entryModule ∧
    ∃ source, kept (dir ++ [x.entryModule]) (.text source) ∧ x.publicNames source = .ok (some names)

lemma Declaration.Stems.unique {x : Extractor} {kept : Place → Content → Prop} {dir : Place}
    {text : String} {p q : Declaration} (hp : p.Stems x kept dir text)
    (hq : q.Stems x kept dir text) : p = q := by
  obtain ⟨c, hc, htags, hstrict⟩ := hp.config
  obtain ⟨c', hc', htags', hstrict'⟩ := hq.config
  rw [hc] at hc'
  cases hc'
  have hroot : p.root = q.root := hp.root_eq.trans hq.root_eq.symm
  have hnames : p.publicNames = q.publicNames :=
    Option.ext fun names => (hp.interface names).trans (hq.interface names).symm
  cases p
  cases q
  rw [mk.injEq]
  exact ⟨hroot, htags.trans htags'.symm, hstrict.trans hstrict'.symm, hnames⟩

namespace Search.Plain

variable {s : Search} {d : Disk} {root dir : Place} {found : Discovery}

lemma ascending (h : s.Plain d root) (hrun : s.run d = .ok found) :
    found.files.Pairwise (fun a b => Path.compare a.path b.path = .lt) ∧
    found.warnings.Pairwise (fun a b => Path.compare a.file b.file = .lt) ∧
    found.packages.Pairwise (fun a b => Path.compare a.root b.root = .lt) := by
  obtain ⟨entries, hvisited, -, hfiles, hpackages, hwarnings⟩ := run_eq_ok hrun
  have hapart := h.pairwise_found hvisited
  rw [hpackages, hfiles, hwarnings]
  exact ⟨ascending_sources hapart, ascending_warnings hapart, ascending_declarations hapart _⟩

end Search.Plain

namespace Sample

end Sample

end ImportFence
