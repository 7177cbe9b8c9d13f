import ImportFence.Tag
import ImportFence.Proofs.Sorted
import Mathlib.Data.List.DropRight
import Mathlib.Data.List.Nodup
import Mathlib.Tactic.Common

/-!
# Tag tables and tag sets

A table reached by numbering tags holds distinct, trimmed, non-blank names, and for each name the
number of its place, which the name keeps when the table grows. Below the greatest number the
numbers tell the trimmed names apart. Sets built by insertion are strictly ascending, so that one
pass over two of them decides whether they meet.
-/

namespace ImportFence

namespace Text

lemma trimStart_trimChars (cs : List Char) : trimStart (trimChars cs) = trimChars cs := by
  have hgrow : trimChars cs <+: trimStart cs := List.rdropWhile_prefix isWhite (trimStart cs)
  refine List.dropWhile_eq_self_iff.mpr ?_
  intro hpos
  have hlen : 0 < (trimStart cs).length := lt_of_lt_of_le hpos hgrow.length_le
  rw [hgrow.getElem hpos]
  exact List.dropWhile_get_zero_not isWhite cs hlen

lemma trimChars_trimChars (cs : List Char) : trimChars (trimChars cs) = trimChars cs := by
  rw [trimChars, trimStart_trimChars]
  exact List.rdropWhile_idempotent isWhite (trimStart cs)

@[simp] lemma trim_trim (s : String) : trim (trim s) = trim s := by
  simp [trim, trimChars_trimChars]

end Text

namespace TagId

lemma ofPlace_of_le {i : Nat} (h : i ≤ last) : ofPlace i = i :=
  Nat.min_eq_left h

lemma ofPlace_le (i : Nat) : ofPlace i ≤ i :=
  Nat.min_le_left i last

@[simp] lemma ofPlace_ofPlace (i : Nat) : ofPlace (ofPlace i) = ofPlace i := by
  simp [ofPlace]

end TagId

namespace TagSet

/-- The numbers of a set stand in strictly ascending order. -/
def Ascending (s : TagSet) : Prop :=
  s.ids.Pairwise (· < ·)

lemma ascending_iff {s : TagSet} : s.Ascending ↔ Sorted.Ascending compare s.ids := by
  simp only [Ascending, Sorted.Ascending, Nat.compare_eq_lt]

lemma empty_ascending : empty.Ascending :=
  List.Pairwise.nil

lemma insert_ascending {s : TagSet} (h : s.Ascending) (id : TagId) : (s.insert id).Ascending :=
  ascending_iff.mpr (Sorted.insert_ascending id (ascending_iff.mp h))

@[simp] lemma mem_insert {s : TagSet} {id a : TagId} :
    a ∈ (s.insert id).ids ↔ a = id ∨ a ∈ s.ids :=
  Sorted.mem_insert

lemma foldl_insert_ascending (ids : List TagId) {s : TagSet} (h : s.Ascending) :
    (ids.foldl insert s).Ascending := by
  induction ids generalizing s with
  | nil => exact h
  | cons id ids ih => exact ih (insert_ascending h id)

lemma mem_foldl_insert {a : TagId} (ids : List TagId) (s : TagSet) :
    a ∈ (ids.foldl insert s).ids ↔ a ∈ s.ids ∨ a ∈ ids := by
  induction ids generalizing s with
  | nil => simp
  | cons id ids ih =>
    rw [List.foldl_cons, ih, mem_insert, List.mem_cons]
    tauto

lemma union_ascending {s : TagSet} (h : s.Ascending) (other : TagSet) :
    (s.union other).Ascending :=
  foldl_insert_ascending other.ids h

@[simp] lemma mem_union {s other : TagSet} {a : TagId} :
    a ∈ (s.union other).ids ↔ a ∈ s.ids ∨ a ∈ other.ids :=
  mem_foldl_insert other.ids s

/-- What a pass drops in front of `x` is smaller than `x`, so it loses no common member. -/
lemma mem_dropWhile_lt {x a : Nat} {ys : List Nat} (hxa : x ≤ a) :
    a ∈ ys.dropWhile (· < x) ↔ a ∈ ys := by
  induction ys with
  | nil => simp
  | cons y ys ih =>
    by_cases hy : y < x
    · rw [List.dropWhile_cons_of_pos (by simpa using hy), ih, List.mem_cons]
      constructor
      · exact Or.inr
      · rintro (rfl | h)
        · omega
        · exact h
    · rw [List.dropWhile_cons_of_neg (by simpa using hy)]

lemma meetAscending_iff {xs ys : List Nat} (hx : xs.Pairwise (· < ·))
    (hy : ys.Pairwise (· < ·)) : meetAscending xs ys = true ↔ ∃ a ∈ xs, a ∈ ys := by
  induction xs generalizing ys with
  | nil => simp [meetAscending]
  | cons x xs ih =>
    obtain ⟨hxs, hxs'⟩ := List.pairwise_cons.mp hx
    have hge : ∀ a ∈ x :: xs, x ≤ a := by
      intro a ha
      rcases List.mem_cons.mp ha with rfl | ha
      · exact le_rfl
      · exact (hxs a ha).le
    have hdrop : (∃ a ∈ x :: xs, a ∈ ys) ↔ ∃ a ∈ x :: xs, a ∈ ys.dropWhile (· < x) := by
      constructor
      · rintro ⟨a, ha, hay⟩
        exact ⟨a, ha, (mem_dropWhile_lt (hge a ha)).mpr hay⟩
      · rintro ⟨a, ha, hay⟩
        exact ⟨a, ha, (mem_dropWhile_lt (hge a ha)).mp hay⟩
    rw [hdrop, meetAscending]
    have hys : (ys.dropWhile (· < x)).Pairwise (· < ·) :=
      hy.sublist (List.dropWhile_suffix _).sublist
    cases hrest : ys.dropWhile (· < x) with
    | nil => simp
    | cons y rest =>
      rw [hrest] at hys
      simp only [Bool.or_eq_true, beq_iff_eq, ih hxs' hys]
      constructor
      · rintro (rfl | ⟨a, ha, hay⟩)
        · exact ⟨x, List.mem_cons_self, List.mem_cons_self⟩
        · exact ⟨a, List.mem_cons_of_mem x ha, hay⟩
      · rintro ⟨a, ha, hay⟩
        rcases List.mem_cons.mp ha with rfl | ha
        · -- `a` heads the first list: behind `y` all numbers are greater than `y`, and `a ≤ y`
          have hya : ¬ y < a := by
            have hne : ys.dropWhile (· < a) ≠ [] := by simp [hrest]
            have hhead := List.head_dropWhile_not (· < a) hne
            simpa [hrest] using hhead
          rcases List.mem_cons.mp hay with rfl | hmem
          · exact Or.inl rfl
          · have := (List.pairwise_cons.mp hys).1 a hmem
            omega
        · exact Or.inr ⟨a, ha, hay⟩

/-- Two ascending sets intersect exactly if they share a tag. -/
theorem intersects_iff {s other : TagSet} (hs : s.Ascending) (ho : other.Ascending) :
    s.intersects other = true ↔ ∃ a ∈ s.ids, a ∈ other.ids :=
  meetAscending_iff hs ho

end TagSet

namespace TagTable

/-- What holds of every table reached by numbering tags. -/
structure WellFormed (t : TagTable) : Prop where
  nodup : t.names.Nodup
  trimmed : ∀ n ∈ t.names, Text.trim n = n
  nonblank : ∀ n ∈ t.names, n ≠ ""
  /-- The numbers of names are those of their places. -/
  numbered : ∀ n id, t.ids.lookup n = some id ↔ ∃ i, t.names[i]? = some n ∧ id = TagId.ofPlace i

lemma empty_wellFormed : empty.WellFormed := by
  constructor <;> simp [empty]

lemma get?_congr {t : TagTable} {raw raw' : String} (h : Text.trim raw = Text.trim raw') :
    t.get? raw = t.get? raw' := by
  simp only [get?, h]

lemma get?_eq_some {t : TagTable} (ht : t.WellFormed) {raw : String} {id : TagId}
    (h : t.get? raw = some id) :
    ∃ i, t.names[i]? = some (Text.trim raw) ∧ id = TagId.ofPlace i :=
  (ht.numbered _ id).mp h

lemma get?_of_getElem? {t : TagTable} (ht : t.WellFormed) {i : Nat} {raw : String}
    (h : t.names[i]? = some (Text.trim raw)) : t.get? raw = some (TagId.ofPlace i) :=
  (ht.numbered _ _).mpr ⟨i, h, rfl⟩

lemma get?_eq_none_iff {t : TagTable} (ht : t.WellFormed) {raw : String} :
    t.get? raw = none ↔ Text.trim raw ∉ t.names := by
  constructor
  · intro h hmem
    obtain ⟨i, hi⟩ := List.mem_iff_getElem?.mp hmem
    rw [get?_of_getElem? ht hi] at h
    cases h
  · intro hmem
    cases h : t.get? raw with
    | none => rfl
    | some id =>
      obtain ⟨i, hi, -⟩ := get?_eq_some ht h
      exact absurd (List.mem_of_getElem? hi) hmem

lemma get?_mono {t t' : TagTable} (hgrow : t.names <+: t'.names) (ht : t.WellFormed)
    (ht' : t'.WellFormed) {raw : String} {id : TagId} (h : t.get? raw = some id) :
    t'.get? raw = some id := by
  obtain ⟨i, hi, rfl⟩ := get?_eq_some ht h
  obtain ⟨rest, hrest⟩ := hgrow
  refine get?_of_getElem? ht' ?_
  obtain ⟨hlt, -⟩ := List.getElem?_eq_some_iff.mp hi
  rw [← hrest, List.getElem?_append_left hlt, hi]

/-- While the numbers do not run out, a tag has the number under which the table has its name. -/
theorem get?_eq_some_iff {t : TagTable} (ht : t.WellFormed) (hsize : t.size ≤ TagId.last)
    {raw : String} {id : TagId} :
    t.get? raw = some id ↔ id < t.size ∧ t.name id = Text.trim raw := by
  constructor
  · intro h
    obtain ⟨i, hi, hid⟩ := get?_eq_some ht h
    obtain ⟨hlt, -⟩ := List.getElem?_eq_some_iff.mp hi
    rw [TagId.ofPlace_of_le (hlt.le.trans hsize)] at hid
    subst hid
    exact ⟨hlt, by rw [name, hi, Option.getD_some]⟩
  · rintro ⟨hlt, hname⟩
    have hi : t.names[id]? = some (Text.trim raw) := by
      rw [← hname, name, List.getElem?_eq_getElem hlt, Option.getD_some]
    rw [get?_of_getElem? ht hi, TagId.ofPlace_of_le (hlt.le.trans hsize)]

lemma trim_eq_of_get?_eq {t : TagTable} (ht : t.WellFormed) (hsize : t.size ≤ TagId.last)
    {a b : String} {id : TagId} (ha : t.get? a = some id) (hb : t.get? b = some id) :
    Text.trim a = Text.trim b := by
  obtain ⟨-, hname⟩ := (get?_eq_some_iff ht hsize).mp ha
  obtain ⟨-, hname'⟩ := (get?_eq_some_iff ht hsize).mp hb
  exact hname.symm.trans hname'

lemma name_of_get? {t : TagTable} (ht : t.WellFormed) {raw : String} {id : TagId}
    (h : t.get? raw = some id) : t.name id ∈ t.names ∧ t.get? (t.name id) = some id := by
  obtain ⟨i, hi, hid⟩ := get?_eq_some ht h
  obtain ⟨hilt, -⟩ := List.getElem?_eq_some_iff.mp hi
  have hlt : id < t.names.length := hid ▸ lt_of_le_of_lt (TagId.ofPlace_le i) hilt
  have hname : t.names[id]? = some (t.name id) := by
    simp [name, List.getElem?_eq_getElem hlt]
  have hmem : t.name id ∈ t.names := List.mem_of_getElem? hname
  refine ⟨hmem, ?_⟩
  rw [← ht.trimmed _ hmem] at hname
  rw [get?_of_getElem? ht hname, hid, TagId.ofPlace_ofPlace]

lemma getElem?_concat_eq_some_iff {names : List String} {n m : String} {i : Nat} :
    (names ++ [n])[i]? = some m ↔ names[i]? = some m ∨ i = names.length ∧ n = m := by
  rcases lt_trichotomy i names.length with hlt | heq | hgt
  · rw [List.getElem?_append_left hlt]
    simp [hlt.ne]
  · simp [heq]
  · rw [List.getElem?_append_right hgt.le]
    simp [hgt.ne', hgt.le, Nat.sub_ne_zero_of_lt hgt]

lemma wellFormed_append {t : TagTable} (ht : t.WellFormed) {n : String} (htrim : Text.trim n = n)
    (hblank : n ≠ "") (hfresh : n ∉ t.names) :
    WellFormed ⟨t.names ++ [n], (n, TagId.ofPlace t.size) :: t.ids⟩ := by
  refine ⟨ht.nodup.append (List.nodup_singleton n) (by simpa using hfresh), ?_, ?_, ?_⟩
  · rw [List.forall_mem_append, List.forall_mem_singleton]
    exact ⟨ht.trimmed, htrim⟩
  · rw [List.forall_mem_append, List.forall_mem_singleton]
    exact ⟨ht.nonblank, hblank⟩
  · intro m id
    simp only [getElem?_concat_eq_some_iff, List.lookup_cons]
    by_cases hm : m = n
    · subst hm
      have hnew : ∀ i : Nat, t.names[i]? ≠ some m := fun i hi => hfresh (List.mem_of_getElem? hi)
      simp [hnew, size, eq_comm]
    · simp only [beq_eq_false_iff_ne.mpr hm, ht.numbered, Ne.symm hm, and_false, or_false]

lemma intern_of_blank (t : TagTable) {raw : String} (h : Text.trim raw = "") :
    t.intern raw = .error .blank :=
  if_pos h

lemma intern_of_known {t : TagTable} {raw : String} {id : TagId} (hblank : Text.trim raw ≠ "")
    (h : t.get? raw = some id) : t.intern raw = .ok (id, t) := by
  rw [intern, if_neg hblank, h]

lemma intern_of_new {t : TagTable} {raw : String} (hblank : Text.trim raw ≠ "")
    (h : t.get? raw = none) :
    t.intern raw = .ok (TagId.ofPlace t.size,
      ⟨t.names ++ [Text.trim raw], (Text.trim raw, TagId.ofPlace t.size) :: t.ids⟩) := by
  rw [intern, if_neg hblank, h]

/-- A tag that can be numbered is not blank; the table has it, or receives it behind the others. -/
lemma intern_cases {t t' : TagTable} {raw : String} {id : TagId}
    (h : t.intern raw = .ok (id, t')) :
    Text.trim raw ≠ "" ∧ (t.get? raw = some id ∧ t' = t ∨
      t.get? raw = none ∧ id = TagId.ofPlace t.size ∧
        t' = ⟨t.names ++ [Text.trim raw], (Text.trim raw, id) :: t.ids⟩) := by
  by_cases hblank : Text.trim raw = ""
  · rw [intern_of_blank t hblank] at h
    cases h
  · refine ⟨hblank, ?_⟩
    cases hget : t.get? raw with
    | some known =>
      rw [intern_of_known hblank hget] at h
      cases h
      exact Or.inl ⟨rfl, rfl⟩
    | none =>
      rw [intern_of_new hblank hget] at h
      cases h
      exact Or.inr ⟨rfl, rfl, rfl⟩

/-- Numbering a tag fails on blank ones only. Otherwise the table grows to one that has the tag
under the returned number. -/
theorem intern_ok {t t' : TagTable} (ht : t.WellFormed) {raw : String} {id : TagId}
    (h : t.intern raw = .ok (id, t')) :
    t'.WellFormed ∧ t.names <+: t'.names ∧ t'.get? raw = some id := by
  obtain ⟨hblank, ⟨hget, rfl⟩ | ⟨hget, rfl, rfl⟩⟩ := intern_cases h
  · exact ⟨ht, List.prefix_rfl, hget⟩
  · have hfresh := (get?_eq_none_iff ht).mp hget
    exact ⟨wellFormed_append ht (Text.trim_trim raw) hblank hfresh, List.prefix_append _ _,
      by simp [get?]⟩

end TagTable

end ImportFence
