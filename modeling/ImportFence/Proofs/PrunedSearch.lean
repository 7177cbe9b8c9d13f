import ImportFence.Proofs.Orders
import ImportFence.Proofs.SearchFrame

/-!
# A search that prunes is a filter

A walk decides entry by entry and never enters a directory that it rejects. It visits the entries
that neither are rejected nor stand below a rejected one, in their order. Where there are no ignore
files, a search therefore visits exactly the entries of which no name is hidden or excluded and no
beginning of whose path is excluded as a whole.
-/

namespace ImportFence
open Traversal Std

/-! ### The walk as a filter -/

/-- Entries of which none stands above one before it. -/
def TopDown (entries : List (Place × Entry)) : Prop :=
  entries.Pairwise fun a b => ¬ b.1 <+: a.1

/-- Neither an entry nor one that it stands below is rejected. -/
def reached (rejects : Place → Entry → Bool) (entries : List (Place × Entry))
    (x : Place × Entry) : Bool :=
  entries.all fun y => !(y.1.isPrefixOf x.1 && rejects y.1 y.2)

lemma reached_iff {rejects : Place → Entry → Bool} {entries : List (Place × Entry)}
    {x : Place × Entry} :
    reached rejects entries x = true ↔
      ∀ y ∈ entries, y.1 <+: x.1 → rejects y.1 y.2 = false := by
  rw [reached, List.all_eq_true]
  refine forall₂_congr fun y _ => ?_
  rw [← List.isPrefixOf_iff_prefix]
  cases y.1.isPrefixOf x.1 <;> simp

/-- A walk from the top visits the entries that it can reach, in their order. -/
lemma walk_eq_filter {rejects : Place → Entry → Bool} {entries : List (Place × Entry)}
    (h : TopDown entries) : walk rejects entries = entries.filter (reached rejects entries) := by
  induction entries using walk.induct rejects with
  | case1 => simp [walk]
  | case2 p e rest hreject ih =>
    obtain ⟨-, hrest⟩ := List.pairwise_cons.mp h
    have hself : reached rejects ((p, e) :: rest) (p, e) = false := by
      rw [← Bool.not_eq_true, reached_iff]
      intro hall
      rw [hall (p, e) List.mem_cons_self List.prefix_rfl] at hreject
      cases hreject
    rw [walk, if_pos hreject, ih (hrest.filter _), List.filter_cons_of_neg (by simp [hself]),
      outside, List.filter_filter]
    apply List.filter_congr
    intro x hx
    rw [Bool.eq_iff_iff, Bool.and_eq_true, reached_iff, reached_iff, Bool.not_eq_true',
      ← Bool.not_eq_true, List.isPrefixOf_iff_prefix]
    constructor
    · rintro ⟨hall, hout⟩ y hy hyx
      rcases List.mem_cons.mp hy with rfl | hy
      · exact absurd hyx hout
      · -- what stands above `x` does not stand below `p`
        refine hall y (List.mem_filter.mpr ⟨hy, ?_⟩) hyx
        rw [Bool.not_eq_true', ← Bool.not_eq_true, List.isPrefixOf_iff_prefix]
        exact fun hpy => hout (hpy.trans hyx)
    · intro hall
      refine ⟨fun y hy => hall y (List.mem_cons_of_mem _ (List.mem_of_mem_filter hy)), ?_⟩
      intro hpx
      rw [hall (p, e) List.mem_cons_self hpx] at hreject
      cases hreject
  | case3 p e rest hreject ih =>
    obtain ⟨hfirst, hrest⟩ := List.pairwise_cons.mp h
    rw [Bool.not_eq_true] at hreject
    have hself : reached rejects ((p, e) :: rest) (p, e) = true := by
      rw [reached_iff]
      intro y hy hyp
      rcases List.mem_cons.mp hy with rfl | hy
      · exact hreject
      · exact absurd hyp (hfirst y hy)
    rw [walk, if_neg (by simp [hreject]), ih hrest, List.filter_cons_of_pos hself]
    congr 1
    apply List.filter_congr
    intro x _
    rw [Bool.eq_iff_iff, reached_iff, reached_iff, List.forall_mem_cons]
    exact ⟨fun hall => ⟨fun _ => hreject, hall⟩, fun hall => hall.2⟩

/-! ### The entries below a directory -/

lemma Place.compare_of_isPrefix {p q : Place} (h : p <+: q) : (Place.compare p q).isLE := by
  obtain ⟨rest, rfl⟩ := h
  rw [Place.compare]
  induction p with
  | nil => cases rest <;> simp [List.compareLex]
  | cons n p ih =>
    have hself : Ord.compare n n = .eq := ReflCmp.compare_self
    rw [List.cons_append, List.compareLex_cons_cons, hself]
    exact ih

namespace FileTree

variable {t : FileTree} {root rel : Place} {e : Entry}

lemma WellFormed.topDown (ht : t.WellFormed) : TopDown t.entries := by
  refine ht.ascending.imp ?_
  intro a b hlt hbelow
  have hle := Place.compare_of_isPrefix hbelow
  rw [OrientedCmp.gt_of_lt hlt] at hle
  cases hle

lemma WellFormed.topDown_below (ht : t.WellFormed) (root : Place) : TopDown (t.below root) := by
  rw [below_eq, TopDown, List.pairwise_filterMap]
  refine ht.topDown.imp ?_
  rintro a b habove x hx y hy hbelow
  rw [(relative?_eq_some_iff.mp hx).2, (relative?_eq_some_iff.mp hy).2] at habove
  exact habove ((List.prefix_append_right_inj root).mpr hbelow)

lemma WellFormed.mem_below_iff (ht : t.WellFormed) :
    (rel, e) ∈ t.below root ↔ rel ≠ [] ∧ t.get? (root ++ rel) = some e := by
  rw [below_eq, List.mem_filterMap]
  constructor
  · rintro ⟨x, hx, hrel⟩
    obtain ⟨hne, rfl⟩ := relative?_eq_some_iff.mp hrel
    exact ⟨hne, ht.get?_of_mem (by simp [hne]) hx⟩
  · rintro ⟨hne, hget⟩
    exact ⟨(root ++ rel, e), mem_of_get? (by simp [hne]) hget,
      relative?_eq_some_iff.mpr ⟨hne, rfl⟩⟩

lemma WellFormed.get?_of_isPrefix (ht : t.WellFormed) {p q : Place} (h : p <+: q) (hne : p ≠ q)
    (hq : t.get? q = some e) : t.get? p = some .directory := by
  by_contra hp
  have hq' : q ≠ [] := by
    rintro rfl
    exact hne (List.prefix_nil.mp h)
  exact hne (ht.eq_of_isPrefix hp (mem_of_get? hq' hq) h).symm

lemma WellFormed.isName (ht : t.WellFormed) (hget : t.get? (root ++ rel) = some e)
    {n : String} (hn : n ∈ rel) : Path.IsName n := by
  have hmem := List.mem_append_right root hn
  exact ht.names _ (mem_of_get? (List.ne_nil_of_mem hmem) hget) n hmem

end FileTree

/-! ### Places as relative paths -/

namespace Place

variable {rel rel' : Place}

lemma path_eq_ofComponents (rel : Place) : rel.path = Path.ofComponents (rel.map .name) := by
  cases rel with
  | nil => rfl
  | cons n rel => simp [path, Path.ofComponents, Function.comp_def, Component.text]

lemma components_path (h : ∀ n ∈ rel, Path.IsName n) : rel.path.components = rel.map .name := by
  rw [path_eq_ofComponents]
  apply Path.components_relative
  intro c hc
  obtain ⟨n, hn, rfl⟩ := List.mem_map.mp hc
  exact h n hn

lemma names_path (h : ∀ n ∈ rel, Path.IsName n) : rel.path.names = rel := by
  rw [Path.names, components_path h, List.filterMap_map]
  exact List.filterMap_some

lemma normalize_path (h : ∀ n ∈ rel, Path.IsName n) : rel.path.normalize = rel.path := by
  have hsteps : rel.path.steps = rel.map .name := by
    rw [Path.steps, components_path h, List.filter_eq_self]
    intro c hc
    obtain ⟨n, -, rfl⟩ := List.mem_map.mp hc
    rfl
  rw [Path.normalize, hsteps, ← path_eq_ofComponents]

lemma path_injective (h : ∀ n ∈ rel, Path.IsName n) (h' : ∀ n ∈ rel', Path.IsName n)
    (heq : rel.path.components = rel'.path.components) : rel = rel' := by
  rw [← names_path h, ← names_path h', Path.names, Path.names, heq]

end Place

/-! ### Disks without ignore rules -/

namespace IgnoreFiles

/-- No file holds ignore rules. -/
structure Absent (d : Disk) : Prop where
  own : ∀ names ∈ [[".ignore"], [".gitignore"], [".git", "info", "exclude"]],
    ∀ place f, d.tree.get? place = some (.file f) → ¬ names <:+ place
  linked : ∀ line ∈ links d, ∀ shared, sharedDirectory? d line = some shared →
    d.isFile ((shared.join ⟨"info"⟩).join ⟨"exclude"⟩) = false

lemma isSuffix_of_holder? {names : List String} {p dir : Place} (h : holder? names p = some dir) :
    names <:+ p := by
  obtain ⟨rest, hrest, -⟩ := Option.map_eq_some_iff.mp h
  rw [List.isPrefixOf?_eq_some_iff_append_eq] at hrest
  refine ⟨rest.reverse, ?_⟩
  rw [← List.reverse_reverse p, ← hrest, List.reverse_append, List.reverse_reverse]

lemma judge?_eq_none {table : List (Place × List Ignore.Rule)} (h : ∀ x ∈ table, x.2 = [])
    (dirs : List Place) (place : Place) (isDirectory : Bool) :
    judge? table dirs place isDirectory = none := by
  rw [judge?, List.findSome?_eq_none_iff]
  intro dir _
  cases hrules : table.lookup dir with
  | none => rfl
  | some rules =>
    obtain ⟨front, back, htable, -⟩ := List.lookup_eq_some_iff.mp hrules
    have hempty : rules = [] := h (dir, rules) (by rw [htable]; simp)
    rw [hempty]
    rfl

variable {d : Disk}

lemma Absent.collect (h : Absent d) (hd : d.tree.WellFormed) {names : List String}
    (hnames : names ∈ [[".ignore"], [".gitignore"], [".git", "info", "exclude"]]) :
    ∀ x ∈ collect d.tree names, x.2 = [] := by
  intro x hx
  obtain ⟨⟨p, e⟩, hentry, hx⟩ := List.mem_filterMap.mp hx
  obtain ⟨dir, hdir, rfl⟩ := Option.map_eq_some_iff.mp hx
  have hsuffix := isSuffix_of_holder? hdir
  cases e with
  | directory => rfl
  | file f =>
    have hp : p ≠ [] := by
      rintro rfl
      rw [List.suffix_nil] at hsuffix
      subst hsuffix
      simp at hnames
    exact absurd hsuffix (h.own names hnames p f (hd.get?_of_mem hp hentry))

lemma Absent.linkedExcludes (h : Absent d) : ∀ x ∈ linkedExcludes d, x.2 = [] := by
  intro x hx
  rw [linkedExcludes_eq] at hx
  obtain ⟨⟨p, e⟩, hentry, hx⟩ := List.mem_filterMap.mp hx
  simp only [linkedRules?, Option.bind_eq_bind, Option.bind_eq_some_iff] at hx
  obtain ⟨dir, hdir, hx⟩ := hx
  cases e with
  | directory => cases hx
  | file f =>
    simp only [Option.bind_eq_some_iff] at hx
    obtain ⟨line, hline, shared, hshared, hx⟩ := hx
    have hlink : line ∈ links d := by
      refine List.mem_filterMap.mpr ⟨_, hentry, ?_⟩
      simp [link?, hdir, hline]
    have hfile := h.linked line hlink shared hshared
    split at hx
    · rename_i entry hfind
      cases hx
      cases entry with
      | directory => rfl
      | file f =>
        rw [Disk.isFile_iff.mpr ⟨f, hfind⟩] at hfile
        cases hfile
    · cases hx

lemma Absent.ignores (h : Absent d) (hd : d.tree.WellFormed) (place : Place) (isDirectory : Bool) :
    (ofDisk d).ignores place isDirectory = false := by
  have hignore : ∀ x ∈ (ofDisk d).ignore, x.2 = [] := h.collect hd (by simp)
  have hgitignore : ∀ x ∈ (ofDisk d).gitignore, x.2 = [] := h.collect hd (by simp)
  have hexclude : ∀ x ∈ (ofDisk d).exclude, x.2 = [] := by
    intro x hx
    rcases List.mem_append.mp hx with hx | hx
    · exact h.collect hd (by simp) x hx
    · exact h.linkedExcludes x hx
  have hnone : (ofDisk d).verdict? place isDirectory = none := by
    simp only [verdict?, judge?_eq_none hignore, judge?_eq_none hgitignore, judge?_eq_none hexclude]
    rfl
  rw [IgnoreFiles.ignores, hnone]
  rfl

end IgnoreFiles

/-! ### What a search visits -/

namespace Search

variable {s : Search} {d : Disk} {root rel : Place} {e : Entry} {entries : List (Place × Entry)}

lemma excludes_eq_false_iff (h : ∀ n ∈ rel, Path.IsName n) :
    s.excludes rel = false ↔
      (s.excludeHidden = true → ∀ n ∈ rel, n.toList.head? ≠ some '.') ∧
      ∀ g ∈ s.patterns, g.matchesText (Text.join "/" rel) = false ∧
        ∀ n ∈ rel, g.matchesText n = false := by
  have hhidden : (s.excludeHidden && rel.path.isHidden) = false ↔
      (s.excludeHidden = true → ∀ n ∈ rel, n.toList.head? ≠ some '.') := by
    rw [Path.isHidden, Place.names_path h]
    cases s.excludeHidden <;> simp
  have hexcluded : rel.path.isExcluded s.patterns = false ↔
      ∀ g ∈ s.patterns, g.matchesText (Text.join "/" rel) = false ∧
        ∀ n ∈ rel, g.matchesText n = false := by
    simp only [Path.isExcluded, Glob.excludes, Place.names_path h, Place.normalize_path h,
      List.any_eq_false, Bool.or_eq_true, not_or, Bool.not_eq_true]
    rfl
  rw [excludes, Bool.or_eq_false_iff, hhidden, hexcluded]

/-- The exclusions on the way down to a place, told by its names and its beginnings. -/
lemma forall_excludes_iff (h : ∀ n ∈ rel, Path.IsName n) :
    (∀ outer, outer <+: rel → outer ≠ [] → s.excludes outer = false) ↔
      (s.excludeHidden = true → ∀ n ∈ rel, n.toList.head? ≠ some '.') ∧
      (∀ g ∈ s.patterns, ∀ n ∈ rel, g.matchesText n = false) ∧
      ∀ g ∈ s.patterns, ∀ outer, outer <+: rel → outer ≠ [] →
        g.matchesText (Text.join "/" outer) = false := by
  have houter : ∀ outer, outer <+: rel → (s.excludes outer = false ↔ _) :=
    fun outer hbegins => excludes_eq_false_iff fun n hn => h n (hbegins.subset hn)
  constructor
  · intro hall
    refine ⟨fun hhidden n hn => ?_, fun g hg n hn => ?_, fun g hg outer hbegins hne => ?_⟩
    · exact ((houter rel List.prefix_rfl).mp
        (hall rel List.prefix_rfl (List.ne_nil_of_mem hn))).1 hhidden n hn
    · exact (((houter rel List.prefix_rfl).mp
        (hall rel List.prefix_rfl (List.ne_nil_of_mem hn))).2 g hg).2 n hn
    · exact (((houter outer hbegins).mp (hall outer hbegins hne)).2 g hg).1
  · rintro ⟨hhidden, hnames, hwholes⟩ outer hbegins hne
    refine (houter outer hbegins).mpr ⟨fun hasked n hn => ?_, fun g hg => ⟨?_, fun n hn => ?_⟩⟩
    · exact hhidden hasked n (hbegins.subset hn)
    · exact hwholes g hg outer hbegins hne
    · exact hnames g hg n (hbegins.subset hn)

lemma visited_eq_filter (hd : d.tree.WellFormed) (hrules : IgnoreFiles.Absent d)
    (hroot : d.locate s.root = .ok root) (hdirectory : d.tree.get? root = some .directory) :
    s.visited d = .ok ((d.tree.below root).filter
      (reached (fun rel _ => s.excludes rel) (d.tree.below root))) := by
  rw [visited_eq hroot hdirectory]
  simp only [hrules.ignores hd, Bool.false_or]
  rw [walk_eq_filter (hd.topDown_below root)]

lemma mem_visited_iff (hd : d.tree.WellFormed) (hrules : IgnoreFiles.Absent d)
    (hroot : d.locate s.root = .ok root) (hdirectory : d.tree.get? root = some .directory)
    (h : s.visited d = .ok entries) :
    (rel, e) ∈ entries ↔ rel ≠ [] ∧ d.tree.get? (root ++ rel) = some e ∧
      ∀ outer, outer <+: rel → outer ≠ [] → s.excludes outer = false := by
  rw [visited_eq_filter hd hrules hroot hdirectory] at h
  cases h
  rw [List.mem_filter, hd.mem_below_iff, reached_iff, and_assoc]
  refine and_congr_right fun hne => and_congr_right fun hget => ?_
  constructor
  · intro hall outer hbegins houter
    -- every beginning of the path is an entry of its own
    have hentry : ∃ e', d.tree.get? (root ++ outer) = some e' := by
      by_cases heq : outer = rel
      · exact ⟨e, heq ▸ hget⟩
      · exact ⟨_, hd.get?_of_isPrefix ((List.prefix_append_right_inj root).mpr hbegins)
          (by simpa using heq) hget⟩
    obtain ⟨e', he'⟩ := hentry
    exact hall (outer, e') (hd.mem_below_iff.mpr ⟨houter, he'⟩) hbegins
  · rintro hall ⟨outer, e'⟩ hy hbegins
    exact hall outer hbegins (hd.mem_below_iff.mp hy).1

lemma pairwise_visited (hd : d.tree.WellFormed) (hrules : IgnoreFiles.Absent d)
    (hroot : d.locate s.root = .ok root) (hdirectory : d.tree.get? root = some .directory)
    (h : s.visited d = .ok entries) : entries.Pairwise fun a b => a.1 ≠ b.1 := by
  rw [visited_eq_filter hd hrules hroot hdirectory] at h
  cases h
  refine ((hd.topDown_below root).filter _).imp ?_
  intro a b habove heq
  exact habove (heq ▸ List.prefix_rfl)

end Search

end ImportFence
