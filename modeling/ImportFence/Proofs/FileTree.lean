import ImportFence.FileTree
import ImportFence.Proofs.ModuleNames
import ImportFence.Proofs.Traversal
import Mathlib.Data.List.Induction

/-!
# Writing one file

What a tree and the paths through it look like after the content of one file was replaced, or a file
was created. Directories are as before, so every path leads where it led, and what stands there is
as before unless it is the file itself.
-/

namespace ImportFence
open Traversal Std

/-! ### A name below a directory -/

namespace Path

instance (t : String) : Decidable (IsName t) :=
  inferInstanceAs (Decidable (_ ∧ _))

variable {n : String}

lemma isAbsolute_name (hn : IsName n) : isAbsolute ⟨n⟩ = false := by
  rw [isAbsolute, beq_eq_false_iff_ne]
  intro hhead
  exact hn.2.1 (List.mem_of_mem_head? hhead)

lemma segments_name (hn : IsName n) : segments ⟨n⟩ = [n] := by
  rw [segments, Text.split, Text.splitChars_of_not_mem hn.2.1]
  simpa using hn.1

lemma segments_slash (front back : String) :
    segments ⟨front ++ "/" ++ back⟩ = segments ⟨front⟩ ++ segments ⟨back⟩ := by
  have htext : (front ++ "/" ++ back).toList = front.toList ++ '/' :: back.toList := by
    simp
  rw [segments, Text.split, htext, Text.splitChars_append_sep, List.map_append,
    List.filter_append]
  rfl

lemma exists_text_slash {dir : Path} (h : dir.text.toList.getLast? = some '/') :
    ∃ front, dir.text = front ++ "/" ∧ dir.segments = segments ⟨front⟩ := by
  obtain ⟨cs, hcs⟩ := List.getLast?_eq_some_iff.mp h
  have htext : dir.text = String.ofList cs ++ "/" := by
    rw [← String.toList_inj, hcs]
    simp
  refine ⟨String.ofList cs, htext, ?_⟩
  have hslash := segments_slash (String.ofList cs) ""
  rw [String.append_empty, ← htext] at hslash
  exact hslash.trans (List.append_nil _)

lemma segments_join_relative (dir : Path) {rest : Path} (hrest : rest.isAbsolute = false) :
    (dir.join rest).segments = dir.segments ++ rest.segments := by
  rw [join, hrest, if_neg (by decide)]
  split_ifs with hend
  · rcases Bool.or_eq_true_iff.mp hend with hempty | hslash
    · rw [decide_eq_true_iff] at hempty
      have hdir : dir.segments = [] := by
        rw [segments, hempty]
        rfl
      rw [hempty, String.empty_append, hdir]
      rfl
    · obtain ⟨front, htext, hdir⟩ := exists_text_slash (decide_eq_true_iff.mp hslash)
      rw [htext, segments_slash, hdir]
  · exact segments_slash dir.text rest.text

lemma segments_join_name (dir : Path) (hn : IsName n) :
    (dir.join ⟨n⟩).segments = dir.segments ++ [n] := by
  rw [segments_join_relative dir (isAbsolute_name hn), segments_name hn]

lemma isAbsolute_join_name (dir : Path) (hn : IsName n) :
    (dir.join ⟨n⟩).isAbsolute = dir.isAbsolute := by
  have hhead : ∀ back : String, dir.text ≠ "" → isAbsolute ⟨dir.text ++ back⟩ = dir.isAbsolute := by
    intro back hne
    rw [isAbsolute, String.toList_append, List.head?_append_of_ne_nil _ (by simpa using hne)]
    rfl
  have hname := isAbsolute_name hn
  rw [join, hname, if_neg (by decide)]
  by_cases hempty : dir.text = ""
  · rw [if_pos (by simp [hempty]), hempty, String.empty_append, hname, isAbsolute, hempty]
    rfl
  · split_ifs
    · exact hhead n hempty
    · rw [String.append_assoc]
      exact hhead _ hempty

lemma components_join_name (dir : Path) (hn : IsName n) :
    (dir.join ⟨n⟩).components = dir.components ++ [.name n] := by
  have hof : Component.ofText n = .name n := ofText_text (c := .name n) hn
  have hfirst : (dir.segments ++ [n]).head? = some "." ↔ dir.segments.head? = some "." := by
    cases dir.segments with
    | nil => simpa using hn.2.2.1
    | cons t ts => rfl
  rw [components, components, segments_join_name dir hn, isAbsolute_join_name dir hn,
    List.map_append, List.filter_append]
  simp only [hfirst, List.map_cons, List.map_nil, hof]
  split_ifs <;> rfl

lemma components_name (hn : IsName n) : components ⟨n⟩ = [.name n] := by
  have hjoin : (⟨""⟩ : Path).join ⟨n⟩ = ⟨n⟩ := by
    simp [join, isAbsolute_name hn]
  rw [← hjoin, components_join_name ⟨""⟩ hn]
  rfl

lemma fileName?_join_name (dir : Path) (hn : IsName n) :
    (dir.join ⟨n⟩).fileName? = some n := by
  rw [fileName?, components_join_name dir hn, List.getLast?_concat]

end Path

/-! ### Entries of a tree -/

instance : TransCmp Place.compare :=
  inferInstanceAs (TransCmp (List.compareLex Ord.compare))

lemma Place.compare_eq_iff {p q : Place} : Place.compare p q = .eq ↔ p = q := by
  rw [Place.compare]
  constructor
  · exact LawfulEqCmp.eq_of_compare
  · rintro rfl
    exact ReflCmp.compare_self

namespace FileTree

/-- What every tree of files is: each place is listed once, ascending, its names can be written in a
path, and whatever stands somewhere stands in a directory. -/
structure WellFormed (t : FileTree) : Prop where
  ascending : t.entries.Pairwise fun a b => Place.compare a.1 b.1 = .lt
  names : ∀ entry ∈ t.entries, ∀ n ∈ entry.1, Path.IsName n
  parent : ∀ entry ∈ t.entries, t.get? entry.1.dropLast = some .directory

variable {t : FileTree} {p q : Place} {e : Entry} {entries : List (Place × Entry)}

lemma get?_eq_some_of_ne (hp : p ≠ []) : t.get? p = some e ↔ t.entries.lookup p = some e := by
  rw [get?, if_neg hp]

lemma mem_of_get? (hp : p ≠ []) (h : t.get? p = some e) : (p, e) ∈ t.entries := by
  rw [get?_eq_some_of_ne hp, List.lookup_eq_some_iff] at h
  obtain ⟨front, back, hentries, -⟩ := h
  rw [hentries]
  simp

lemma WellFormed.get?_of_mem (ht : t.WellFormed) (hp : p ≠ []) (h : (p, e) ∈ t.entries) :
    t.get? p = some e := by
  obtain ⟨front, back, hentries⟩ := List.append_of_mem h
  rw [get?_eq_some_of_ne hp, List.lookup_eq_some_iff]
  refine ⟨front, back, hentries, ?_⟩
  intro entry hentry
  have hlt := ht.ascending
  rw [hentries, List.pairwise_append] at hlt
  have hbefore := hlt.2.2 entry hentry (p, e) List.mem_cons_self
  rw [bne_iff_ne]
  rintro rfl
  rw [Place.compare_eq_iff.mpr rfl] at hbefore
  cases hbefore

lemma WellFormed.eq_of_isPrefix (ht : t.WellFormed) (hp : t.get? p ≠ some .directory)
    {entry : Place × Entry} (hentry : entry ∈ t.entries) (h : p <+: entry.1) : entry.1 = p := by
  obtain ⟨rest, hrest⟩ := h
  -- climb from the entry: each place on the way would be a directory, the last one `p`
  induction rest using List.reverseRecOn generalizing entry with
  | nil => rw [← hrest, List.append_nil]
  | append_singleton rest n ih =>
    have hparent := ht.parent entry hentry
    rw [← hrest, ← List.append_assoc, List.dropLast_concat] at hparent
    have hne : p ++ rest ≠ [] := by
      intro hnil
      rw [(List.append_eq_nil_iff.mp hnil).1] at hp
      exact hp rfl
    have habove := ih (mem_of_get? hne hparent) rfl
    dsimp only at habove
    rw [habove] at hparent
    exact absurd hparent hp

lemma lookup_insertEntry_self (p : Place) (e : Entry) (entries : List (Place × Entry)) :
    (insertEntry p e entries).lookup p = some e := by
  induction entries with
  | nil => simp [insertEntry]
  | cons head entries ih =>
    rw [insertEntry]
    split
    · exact List.lookup_cons_self
    · exact List.lookup_cons_self
    · rename_i hgt
      have hne : p ≠ head.1 := by
        rw [ne_eq, ← Place.compare_eq_iff, hgt]
        decide
      rw [List.lookup_cons, beq_false_of_ne hne]
      exact ih

lemma lookup_insertEntry_ne (hne : q ≠ p) (e : Entry) (entries : List (Place × Entry)) :
    (insertEntry p e entries).lookup q = entries.lookup q := by
  have hother : ∀ rest, ((p, e) :: rest).lookup q = rest.lookup q := by
    intro rest
    rw [List.lookup_cons, beq_false_of_ne hne]
  induction entries with
  | nil => exact hother []
  | cons head entries ih =>
    rw [insertEntry]
    split
    · exact hother _
    · rename_i heq
      rw [Place.compare_eq_iff] at heq
      rw [hother, List.lookup_cons, ← heq, beq_false_of_ne hne]
    · rw [List.lookup_cons, List.lookup_cons, ih]

lemma get?_put_self (hp : p ≠ []) : (t.put p e).get? p = some e := by
  rw [get?, if_neg hp]
  exact lookup_insertEntry_self p e t.entries

lemma get?_put_ne (hne : q ≠ p) : (t.put p e).get? q = t.get? q := by
  rw [get?, get?]
  split_ifs
  · rfl
  · exact lookup_insertEntry_ne hne e t.entries

lemma map_enter_eq_ok_iff {next : Place} :
    (t.enter p).map (fun _ => next) = .ok q ↔ t.get? p = some .directory ∧ next = q := by
  rw [enter, map_eq_ok_iff]
  split <;> simp_all

lemma step_eq_ok_congr {t' : FileTree}
    (h : ∀ q, t'.get? q = some .directory ↔ t.get? q = some .directory) (p : Place)
    (c : Component) (q : Place) : t'.step p c = .ok q ↔ t.step p c = .ok q := by
  have henter : ∀ next : Place,
      (t'.enter p).map (fun _ => next) = .ok q ↔ (t.enter p).map (fun _ => next) = .ok q := by
    intro next
    rw [map_enter_eq_ok_iff, map_enter_eq_ok_iff, h]
  cases c with
  | root => rfl
  | current => exact henter p
  | parent => exact henter p.dropLast
  | name n => exact henter (p ++ [n])

end FileTree

/-! ### Paths after one file was written -/

namespace Disk

variable {d d' : Disk} {p : Path} {place : Place} {e : Entry}

lemma find_eq_ok_iff :
    d.find p = .ok e ↔ ∃ q, d.locate p = .ok q ∧ d.tree.get? q = some e := by
  rw [find, bind_eq_ok_iff]
  refine exists_congr fun q => and_congr_right fun _ => ?_
  cases d.tree.get? q with
  | none => simp [throw, throwThe, MonadExceptOf.throw]
  | some e' => simp [pure, Except.pure]

lemma isFile_iff : d.isFile p = true ↔ ∃ f, d.find p = .ok (.file f) := by
  rw [isFile]
  split <;> simp_all

lemma locate_join_name {n : String} (hn : Path.IsName n) (dir : Path) :
    d.locate (dir.join ⟨n⟩) = .ok place ↔
      ∃ q, d.locate dir = .ok q ∧ d.tree.get? q = some .directory ∧ place = q ++ [n] := by
  rw [locate, Path.components_join_name dir hn, List.foldlM_append, bind_eq_ok_iff]
  refine exists_congr fun q => and_congr_right fun _ => ?_
  have hstep : [Component.name n].foldlM d.tree.step q = d.tree.step q (.name n) := by
    simp
  rw [hstep, FileTree.step, FileTree.map_enter_eq_ok_iff, eq_comm (a := place)]

/-- Two disks that differ in one file at most, which may be new on the second. -/
structure Rewrites (d d' : Disk) (place : Place) : Prop where
  cwd_eq : d'.cwd = d.cwd
  get?_ne : ∀ q ≠ place, d'.tree.get? q = d.tree.get? q
  before : d.tree.get? place ≠ some .directory
  after : ∃ f, d'.tree.get? place = some (.file f)
  others : d'.tree.entries.filter (·.1 ≠ place) = d.tree.entries.filter (·.1 ≠ place)
  places : d.tree.get? place = none ∨
    d'.tree.entries.map (·.1) = d.tree.entries.map (·.1)
  bare : ∀ entry ∈ d.tree.entries, place <+: entry.1 → entry.1 = place

lemma writeText_eq_ok {text : String} (h : d.writeText p text = .ok d') :
    ∃ place x, d.locate p = .ok place ∧ d.tree.get? place ≠ some .directory ∧
      d' = { d with tree := d.tree.put place (.file ⟨.text text, x⟩) } := by
  rw [writeText, bind_eq_ok_iff] at h
  obtain ⟨place, hplace, h⟩ := h
  split at h
  · cases h
  · rename_i f hf
    cases h
    exact ⟨place, f.executable, hplace, by simp [hf], rfl⟩
  · rename_i hnone
    cases h
    exact ⟨place, false, hplace, by simp [hnone], rfl⟩

namespace Rewrites

lemma ne_nil (h : d.Rewrites d' place) : place ≠ [] := by
  rintro rfl
  exact h.before rfl

end Rewrites

end Disk

end ImportFence
