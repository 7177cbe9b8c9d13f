import ImportFence.Proofs.PackageView
import Mathlib.Data.List.Dedup

/-!
# Which declarations are refused, and why

A declaration can be bad in five ways. A list of declarations builds exactly if none of them is bad,
and otherwise the error is about the first bad one: its first fault in a fixed order. A tree that
builds numbers its packages by their places, and each look-up of a package by its own number or root
finds it.
-/

namespace ImportFence
open Traversal

namespace Declaration

/-- A declaration that must not stand behind the earlier ones. -/
def Bad (sourceRoots : List Path) (earlier : List Declaration) (d : Declaration) : Prop :=
  d.tags = [] ∨ (∃ e ∈ earlier, e.root.normalize = d.root.normalize) ∨
    (∃ raw ∈ d.tags, Text.trim raw = "") ∨ Module.ofDirectory? sourceRoots d.root = none ∨
    (d.strict = true ∧ d.publicNames = none)

/-- All that is wrong with a declaration behind the earlier ones, in the order in which it counts.
Of several blank tags only the first one does. -/
def faults (sourceRoots : List Path) (earlier : List Declaration) (d : Declaration) :
    List ConfigError :=
  let name := d.root.normalize.packageName
  (if d.tags = [] then [.missingTags name] else []) ++
  (if ∃ e ∈ earlier, e.root.normalize = d.root.normalize then [.duplicateRoot name] else []) ++
  ((d.tags.findIdx? (Text.trim · = "")).map fun i => .blankTag (.packageTag name i)).toList ++
  (if Module.ofDirectory? sourceRoots d.root = none then [.outsideSourceRoots name] else []) ++
  (if d.strict = true ∧ d.publicNames = none then [.strictWithoutInterface name] else [])

variable {sourceRoots : List Path} {earlier : List Declaration} {d : Declaration}

lemma faults_eq_nil_iff : d.faults sourceRoots earlier = [] ↔ ¬ d.Bad sourceRoots earlier := by
  have hblank : d.tags.findIdx? (Text.trim · = "") = none ↔
      ¬ ∃ raw ∈ d.tags, Text.trim raw = "" := by
    simp
  rw [Bad, not_or, not_or, not_or, not_or, ← hblank, faults]
  simp only [List.append_eq_nil_iff, Option.toList_eq_nil_iff, Option.map_eq_none_iff,
    ite_eq_right_iff, List.cons_ne_nil, imp_false, and_assoc]

end Declaration

namespace Path

lemma normalize_normalize (p : Path) : p.normalize.normalize = p.normalize := by
  rw [normalize, steps_normalize, ← normalize]

lemma same_normalize_iff {a b : Path} :
    a.normalize.same b.normalize = true ↔ a.normalize = b.normalize := by
  rw [same_iff, components_normalize, components_normalize]
  constructor
  · intro h
    rw [normalize, normalize, h]
  · intro h
    rw [← steps_normalize a, h, steps_normalize]

end Path

namespace Module

lemma ofDirectory?_normalize (sourceRoots : List Path) (dir : Path) :
    ofDirectory? sourceRoots dir.normalize = ofDirectory? sourceRoots dir := by
  simp only [ofDirectory?, belowSourceRoot?, Path.steps_normalize]

lemma ne_empty_of_ofDirectory? {sourceRoots : List Path} {dir : Path} {module : String}
    (h : ofDirectory? sourceRoots dir = some module) : module ≠ "" := by
  simp only [ofDirectory?, Option.bind_eq_bind, Option.bind_eq_some_iff] at h
  obtain ⟨rest, hrest, names, hnames, hmodule⟩ := h
  obtain ⟨root, -, hbelow⟩ := List.exists_of_findSome?_eq_some hrest
  rw [Path.below?, List.isPrefixOf?_eq_some_iff_append_eq] at hbelow
  rw [namesOf?_eq_some_iff] at hnames
  have hnonempty : ∀ n ∈ names, n ≠ "" := by
    intro n hn
    apply Path.name_ne_empty (p := dir)
    rw [← hbelow, hnames]
    exact List.mem_append_right _ (List.mem_map_of_mem hn)
  split at hmodule
  · cases hmodule
  · rename_i hne
    rw [← Option.some.inj hmodule]
    exact join_ne_empty (by simpa using hne) hnonempty

end Module

lemma firstOccurrences_concat (names : List String) (n : String) :
    firstOccurrences (names ++ [n]) =
      if n ∈ firstOccurrences names then firstOccurrences names
      else firstOccurrences names ++ [n] :=
  List.foldl_concat ..

lemma firstOccurrences_eq_eraseDups (names : List String) :
    firstOccurrences names = names.eraseDups := by
  induction names using List.reverseRecOn with
  | nil => rfl
  | append_singleton names n ih =>
    rw [firstOccurrences_concat, ih, List.eraseDups_append]
    by_cases hmem : n ∈ names
    · simp [List.removeAll, hmem]
    · simp [List.removeAll, hmem, List.eraseDups_cons]

namespace PackageTree

variable {sourceRoots : List Path} {t : PackageTree} {declarations earlier : List Declaration}
  {d : Declaration} {e : ConfigError}

/-! ### The first fault -/

/-- Positions count from `i`. -/
lemma internTags_eq_error_iff {name : String} {i : Nat} {raws : List String} {table : TagTable}
    {set : TagSet} :
    internTags name i raws table set = .error e ↔
      ∃ j, raws.findIdx? (Text.trim · = "") = some j ∧
        e = .blankTag (.packageTag name (i + j)) := by
  induction raws generalizing i table set with
  | nil => simp [internTags]
  | cons raw raws ih =>
    rw [internTags]
    by_cases hblank : Text.trim raw = ""
    · have hintern := table.intern_of_blank hblank
      have hfirst : (raw :: raws).findIdx? (Text.trim · = "") = some 0 := by
        simp [List.findIdx?_cons, hblank]
      rw [hintern, hfirst]
      constructor
      · rintro ⟨⟩
        exact ⟨0, rfl, rfl⟩
      · rintro ⟨-, ⟨⟩, rfl⟩
        rfl
    · obtain ⟨id, next, hintern⟩ := table.exists_intern hblank
      rw [hintern, List.findIdx?_cons]
      simp only [ih, hblank, decide_false, Bool.false_eq_true, if_false, Option.map_eq_some_iff]
      constructor
      · rintro ⟨j, hj, rfl⟩
        exact ⟨j + 1, ⟨j, hj, rfl⟩, by rw [Nat.add_assoc, Nat.add_comm 1 j]⟩
      · rintro ⟨-, ⟨j, hj, rfl⟩, rfl⟩
        exact ⟨j, hj, by rw [Nat.add_assoc, Nat.add_comm 1 j]⟩

lemma add_eq_error_iff (ht : t.Follows sourceRoots earlier) :
    add sourceRoots t d = .error e ↔ (d.faults sourceRoots earlier).head? = some e := by
  have hduplicate : t.packages.any (fun p => p.root.same d.root.normalize) = true ↔
      ∃ e ∈ earlier, e.root.normalize = d.root.normalize := by
    have hroots : t.packages.any (fun p => p.root.same d.root.normalize) =
        (t.packages.map (·.root)).any (·.same d.root.normalize) := by
      rw [List.any_map]
      rfl
    rw [hroots, ht.map_root]
    simp [Path.same_normalize_iff]
  rw [add_eq, Declaration.faults]
  by_cases htags : d.tags = []
  · simp [htags]
  rw [if_neg (by simpa using htags), if_neg htags]
  by_cases hfound : ∃ e ∈ earlier, e.root.normalize = d.root.normalize
  · simp [hduplicate.mpr hfound, hfound]
  rw [if_neg (fun h => hfound (hduplicate.mp h)), if_neg hfound]
  cases hblank : d.tags.findIdx? (Text.trim · = "") with
  | some i =>
    have hintern : internTags d.root.normalize.packageName 0 d.tags t.tags TagSet.empty =
        .error (.blankTag (.packageTag d.root.normalize.packageName i)) :=
      internTags_eq_error_iff.mpr ⟨i, hblank, by rw [Nat.zero_add]⟩
    simp [hintern]
  | none =>
    obtain ⟨⟨tags, table⟩, hintern⟩ :=
      exists_internTags d.root.normalize.packageName (by simpa using hblank) 0 t.tags TagSet.empty
    rw [hintern, Module.ofDirectory?_normalize]
    cases Module.ofDirectory? sourceRoots d.root with
    | none => simp
    | some module =>
      have hstrict : (d.strict && d.publicNames.isNone) = true ↔
          d.strict = true ∧ d.publicNames = none := by simp
      by_cases hopen : d.strict = true ∧ d.publicNames = none
      · simp [hopen]
      · simp [hstrict.not.mpr hopen, hopen]

lemma exists_add_iff_faults (ht : t.Follows sourceRoots earlier) :
    (∃ t', add sourceRoots t d = .ok t') ↔ d.faults sourceRoots earlier = [] := by
  have herror := fun e => add_eq_error_iff (d := d) (e := e) ht
  cases hadd : add sourceRoots t d with
  | ok t' =>
    simp only [Except.ok.injEq, exists_eq', true_iff]
    rw [← List.head?_eq_none_iff, Option.eq_none_iff_forall_ne_some]
    intro e he
    rw [(herror e).mpr he] at hadd
    cases hadd
  | error e =>
    have hfault := (herror e).mp hadd
    constructor
    · rintro ⟨t', ⟨⟩⟩
    · intro hnone
      rw [hnone] at hfault
      cases hfault

lemma foldlM_add_eq_error_iff {rest : List Declaration} (ht : t.Follows sourceRoots earlier) :
    rest.foldlM (add sourceRoots) t = .error e ↔
      ∃ (i : Nat) (d : Declaration), rest[i]? = some d ∧
        (d.faults sourceRoots (earlier ++ rest.take i)).head? = some e ∧
        ∀ j < i, ∀ d' : Declaration, rest[j]? = some d' →
          d'.faults sourceRoots (earlier ++ rest.take j) = [] := by
  induction rest generalizing t earlier with
  | nil =>
    constructor
    · intro h
      cases h
    · rintro ⟨i, d, hd, -⟩
      cases hd
  | cons d rest ih =>
    -- what stands before a later declaration, `d` counted with the earlier ones
    have hbefore : ∀ i, earlier ++ (d :: rest).take (i + 1) = earlier ++ [d] ++ rest.take i := by
      simp
    rw [List.foldlM_cons, bind_eq_error_iff, add_eq_error_iff ht]
    constructor
    · rintro (hfault | ⟨next, hadd, hrest⟩)
      · exact ⟨0, d, rfl, by simpa using hfault, by simp⟩
      · obtain ⟨i, d', hi, hfault, hfirst⟩ := (ih (add_follows ht hadd)).mp hrest
        refine ⟨i + 1, d', hi, by rw [hbefore]; exact hfault, ?_⟩
        intro j hj d'' hd''
        cases j with
        | zero =>
          cases hd''
          simpa using (exists_add_iff_faults ht).mp ⟨next, hadd⟩
        | succ j =>
          rw [hbefore]
          exact hfirst j (by omega) d'' hd''
    · rintro ⟨i, d', hi, hfault, hfirst⟩
      cases i with
      | zero =>
        cases hi
        exact Or.inl (by simpa using hfault)
      | succ i =>
        have hgood : d.faults sourceRoots earlier = [] := by
          simpa using hfirst 0 (by omega) d rfl
        obtain ⟨next, hadd⟩ := (exists_add_iff_faults ht).mpr hgood
        refine Or.inr ⟨next, hadd, (ih (add_follows ht hadd)).mpr ⟨i, d', hi, ?_, ?_⟩⟩
        · rwa [hbefore] at hfault
        · intro j hj d'' hd''
          have hlater := hfirst (j + 1) (by omega) d'' hd''
          rwa [hbefore] at hlater

/-! ### What a tree that builds is -/

/-- Number of distinct tags of declarations. -/
def tagCount (declarations : List Declaration) : Nat :=
  ((declarations.flatMap (·.tags)).map Text.trim).dedup.length

lemma size_le_tagCount (ht : t.Represents declarations)
    (hfollows : t.Follows sourceRoots declarations) : t.tags.size ≤ tagCount declarations := by
  apply (List.subperm_of_subset ht.wellFormed.nodup _).length_le
  intro n hn
  obtain ⟨d, hd, raw, hraw, rfl⟩ := (hfollows.mem_names n).mp hn
  rw [List.mem_dedup, List.mem_map]
  exact ⟨raw, List.mem_flatMap.mpr ⟨d, hd, hraw⟩, rfl⟩

lemma Follows.findByRoot?_eq (hfollows : t.Follows sourceRoots declarations) {p : Package}
    (hp : p ∈ t.packages) {root : Path} (hroot : root.normalize = p.root) :
    t.findByRoot? root = some p := by
  have hsome : (t.findByRoot? root).isSome = true := by
    rw [findByRoot?, List.find?_isSome]
    exact ⟨p, hp, by rw [hroot, Path.same_iff]⟩
  obtain ⟨q, hq⟩ := Option.isSome_iff_exists.mp hsome
  have hsame := List.find?_some hq
  rw [hroot, Path.same_iff] at hsame
  rw [hq, hfollows.eq_of_root (List.mem_of_find?_eq_some hq) hp hsame]

end PackageTree

/-- What the package at a place of a tree is, in terms of its declaration. -/
structure Package.Realizes (sourceRoots : List Path) (t : PackageTree) (k : Nat) (d : Declaration)
    (p : Package) : Prop where
  id_eq : p.id = k
  root_eq : p.root = d.root.normalize
  module_eq : Module.ofDirectory? sourceRoots d.root = some p.module
  module_ne : p.module ≠ ""
  tagged : p.tags.ids ≠ []
  ascending : p.tags.ids.Pairwise (· < ·)
  numbered : ∀ id ∈ p.tags.ids, id < t.tags.size
  mem_names : ∀ n, n ∈ p.tags.ids.map t.tags.name ↔ n ∈ d.tags.map Text.trim
  strict_eq : p.strict = d.strict
  interface : p.strict = true → p.publicNames.isSome = true
  publicNames_eq : p.publicNames = d.publicNames.map List.eraseDups
  get?_eq : t.get? k = some p
  findByRoot?_eq : t.findByRoot? p.root = some p ∧ t.findByRoot? d.root = some p

namespace PackageTree

variable {sourceRoots : List Path} {t : PackageTree} {declarations : List Declaration}
  {d : Declaration}

lemma realizes (ht : t.Represents declarations) (hfollows : t.Follows sourceRoots declarations)
    (hsize : t.tags.size ≤ TagId.last) {k : Nat} {p : Package} (hp : t.packages[k]? = some p)
    (hd : declarations[k]? = some d) : p.Realizes sourceRoots t k d := by
  have hmem := List.mem_of_getElem? hp
  have hrepresents := ht.package k p d hp hd
  have hp' : p.Follows sourceRoots d := by
    obtain ⟨hk, rfl⟩ := List.getElem?_eq_some_iff.mp hp
    obtain ⟨hk', rfl⟩ := List.getElem?_eq_some_iff.mp hd
    exact hfollows.package.get hk hk'
  have hmodule : Module.ofDirectory? sourceRoots d.root = some p.module := by
    rw [← hp'.module_eq, hp'.root_eq, Module.ofDirectory?_normalize]
  have hnumbered : ∀ id ∈ p.tags.ids, id < t.tags.size := by
    intro id hid
    obtain ⟨raw, -, hraw⟩ := (hrepresents.mem_tags id).mp hid
    exact ((TagTable.get?_eq_some_iff ht.wellFormed hsize).mp hraw).1
  have hinterface : p.strict = true → p.publicNames.isSome = true := by
    rw [hp'.strict_eq, hp'.publicNames_eq, Option.isSome_map]
    exact (hfollows.admissible d (List.mem_of_getElem? hd)).interface
  have hnames : p.publicNames = d.publicNames.map List.eraseDups := by
    rw [hp'.publicNames_eq]
    exact congrArg (d.publicNames.map ·) (funext firstOccurrences_eq_eraseDups)
  exact {
    id_eq := ht.id_eq k p hp
    root_eq := hp'.root_eq
    module_eq := hmodule
    module_ne := Module.ne_empty_of_ofDirectory? hmodule
    tagged := List.ne_nil_of_mem hrepresents.exists_tag.choose_spec
    ascending := hrepresents.ascending
    numbered := hnumbered
    mem_names := hrepresents.mem_names ht.wellFormed hsize
    strict_eq := hp'.strict_eq
    interface := hinterface
    publicNames_eq := hnames
    get?_eq := hp
    findByRoot?_eq := ⟨hfollows.findByRoot?_eq hmem (by rw [hp'.root_eq, Path.normalize_normalize]),
      hfollows.findByRoot?_eq hmem hp'.root_eq.symm⟩ }

/-- A list of declarations builds exactly if none of them is bad. Otherwise the error is the first
fault of the first bad one. In a tree that builds, every package stands for its declaration. -/
theorem build_first_fault (sourceRoots : List Path) (declarations : List Declaration)
    (hfew : tagCount declarations ≤ TagId.last) :
    ((∃ e, build declarations sourceRoots = .error e) ↔
      ∃ (i : Nat) (d : Declaration), declarations[i]? = some d ∧
        d.Bad sourceRoots (declarations.take i)) ∧
    (∀ e, build declarations sourceRoots = .error e ↔
      ∃ (i : Nat) (d : Declaration), declarations[i]? = some d ∧
        (d.faults sourceRoots (declarations.take i)).head? = some e ∧
        ∀ j < i, ∀ d' : Declaration, declarations[j]? = some d' →
          ¬ d'.Bad sourceRoots (declarations.take j)) ∧
    ∀ t, build declarations sourceRoots = .ok t →
      t.packages.length = declarations.length ∧
      (t.packages.map (·.root)).Pairwise (fun a b => a.components ≠ b.components) ∧
      ∀ (k : Nat) (p : Package) (d : Declaration), t.packages[k]? = some p →
        declarations[k]? = some d → p.Realizes sourceRoots t k d := by
  have herror : ∀ e, build declarations sourceRoots = .error e ↔
      ∃ (i : Nat) (d : Declaration), declarations[i]? = some d ∧
        (d.faults sourceRoots (declarations.take i)).head? = some e ∧
        ∀ j < i, ∀ d' : Declaration, declarations[j]? = some d' →
          ¬ d'.Bad sourceRoots (declarations.take j) := by
    intro e
    rw [build, foldlM_add_eq_error_iff (empty_follows sourceRoots)]
    simp only [List.nil_append, Declaration.faults_eq_nil_iff]
  refine ⟨?_, herror, ?_⟩
  · constructor
    · rintro ⟨e, he⟩
      obtain ⟨i, d, hd, hfault, -⟩ := (herror e).mp he
      refine ⟨i, d, hd, ?_⟩
      by_contra hgood
      rw [Declaration.faults_eq_nil_iff.mpr hgood] at hfault
      cases hfault
    · intro hbad
      -- the least place of a bad declaration
      classical
      obtain ⟨d, hd, hfaulty⟩ := Nat.find_spec hbad
      rw [← not_not (a := d.Bad _ _), ← Declaration.faults_eq_nil_iff,
        ← List.head?_eq_none_iff, ← ne_eq, Option.ne_none_iff_exists'] at hfaulty
      obtain ⟨e, he⟩ := hfaulty
      refine ⟨e, (herror e).mpr ⟨Nat.find hbad, d, hd, he, ?_⟩⟩
      intro j hj d' hd' hbad'
      exact Nat.find_min hbad hj ⟨d', hd', hbad'⟩
  · intro t hbuild
    have ht := build_represents hbuild
    have hfollows := build_follows hbuild
    have hsize : t.tags.size ≤ TagId.last := (size_le_tagCount ht hfollows).trans hfew
    refine ⟨ht.length_eq, List.pairwise_map.mp hfollows.distinct, ?_⟩
    intro k p d hp hd
    exact realizes ht hfollows hsize hp hd

end PackageTree

namespace Sample

/-- Behind two good declarations comes one with three faults, and then one with another. -/
def faultyDeclarations : List Declaration :=
  [⟨⟨"src/a"⟩, [" x"], true, some ["f", "g", "f"]⟩, ⟨⟨"src/b"⟩, ["y", "x "], false, none⟩,
    ⟨⟨"./src//a"⟩, ["z", " ", ""], true, none⟩, ⟨⟨"src/c"⟩, [], false, none⟩]

/-- The tree of the two good ones. -/
def soundTree : PackageTree where
  packages := [⟨0, ⟨"src/a"⟩, "a", ⟨[0]⟩, true, some ["f", "g"]⟩,
    ⟨1, ⟨"src/b"⟩, "b", ⟨[0, 1]⟩, false, none⟩]
  tags := ⟨["x", "y"], [("y", 1), ("x", 0)]⟩

end Sample

theorem PackageTree.build_first_fault_sample :
    PackageTree.build Sample.faultyDeclarations [⟨"src"⟩] = .error (.duplicateRoot "src/a") ∧
    PackageTree.build (Sample.faultyDeclarations.take 2) [⟨"src"⟩] = .ok Sample.soundTree ∧
    Sample.soundTree.findByRoot? ⟨"src/a"⟩ = Sample.soundTree.packages[0]? := by
  have hbuild : build (Sample.faultyDeclarations.take 2) [⟨"src"⟩] = .ok Sample.soundTree := by
    decide +kernel
  obtain ⟨-, herror, -⟩ :=
    build_first_fault [⟨"src"⟩] Sample.faultyDeclarations (by decide +kernel)
  obtain ⟨-, -, hsound⟩ :=
    build_first_fault [⟨"src"⟩] (Sample.faultyDeclarations.take 2) (by decide +kernel)
  obtain ⟨-, -, hrealizes⟩ := hsound _ hbuild
  refine ⟨(herror _).mpr ⟨2, ⟨⟨"./src//a"⟩, ["z", " ", ""], true, none⟩, rfl, ?_, ?_⟩, hbuild,
    (hrealizes 0 _ _ rfl rfl).findByRoot?_eq.2⟩
  · decide +kernel
  · intro j hj d hd
    rw [← Declaration.faults_eq_nil_iff]
    obtain rfl | rfl : j = 0 ∨ j = 1 := by omega
    · cases hd
      decide +kernel
    · cases hd
      decide +kernel

end ImportFence
