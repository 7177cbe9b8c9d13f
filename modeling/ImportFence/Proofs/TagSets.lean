import ImportFence.Proofs.Tag
import Mathlib.Data.Finset.Lattice.Lemmas
import Mathlib.Data.Finset.Dedup

/-!
# Sets of tags are canonical

However a set of tags comes about, its list is the strictly ascending list of all that was put in.
A search of the list is therefore membership, a common member is found whichever list is walked
first, and equal sets are equal lists.
-/

namespace ImportFence.TagSet

/-- The search ends at the first number that is not smaller: all behind it are greater. -/
lemma searchAscending_iff {x : TagId} {ids : List TagId} (h : ids.Pairwise (· < ·)) :
    searchAscending x ids = true ↔ x ∈ ids := by
  induction ids with
  | nil => simp [searchAscending]
  | cons y ys ih =>
    obtain ⟨hy, hys⟩ := List.pairwise_cons.mp h
    rw [searchAscending, List.mem_cons]
    by_cases hlt : y < x
    · rw [if_pos hlt, ih hys]
      exact (or_iff_right hlt.ne').symm
    · rw [if_neg hlt, beq_iff_eq]
      have hbehind : x ∉ ys := by
        intro hmem
        exact hlt (hy x hmem)
      exact (or_iff_left hbehind).symm

lemma contains_iff {s : TagSet} (hs : s.Ascending) {x : TagId} :
    s.contains x = true ↔ x ∈ s.ids :=
  searchAscending_iff hs

lemma intersects_comm {s other : TagSet} (hs : s.Ascending) (ho : other.Ascending) :
    s.intersects other = other.intersects s := by
  rw [Bool.eq_iff_iff, intersects_iff hs ho, intersects_iff ho hs]
  simp only [and_comm]

/-! ### Sorting and leaving out repetitions -/

lemma mem_dropRepeats {a : TagId} {ids : List TagId} : a ∈ dropRepeats ids ↔ a ∈ ids := by
  fun_induction dropRepeats ids with
  | case1 x rest ih => simp [ih]
  | case2 x y rest hne ih => simp only [List.mem_cons, ih]
  | case3 ids hshort => rfl

lemma dropRepeats_pairwise {ids : List TagId} (h : ids.Pairwise (· ≤ ·)) :
    (dropRepeats ids).Pairwise (· < ·) := by
  fun_induction dropRepeats ids with
  | case1 x rest ih => exact ih (List.pairwise_cons.mp h).2
  | case2 x y rest hne ih =>
    obtain ⟨hx, hrest⟩ := List.pairwise_cons.mp h
    obtain ⟨hy, -⟩ := List.pairwise_cons.mp hrest
    have hxy : x < y := lt_of_le_of_ne (hx y List.mem_cons_self) hne
    refine List.pairwise_cons.mpr ⟨?_, ih hrest⟩
    intro b hb
    rcases List.mem_cons.mp (mem_dropRepeats.mp hb) with rfl | hb
    · exact hxy
    · exact lt_of_lt_of_le hxy (hy b hb)
  | case3 ids hshort =>
    match ids, hshort with
    | [], _ => exact List.Pairwise.nil
    | [x], _ => exact List.pairwise_singleton _ x
    | x :: y :: rest, hshort => exact absurd rfl (hshort x y rest)

@[simp] lemma mem_ofList {a : TagId} {ids : List TagId} : a ∈ (ofList ids).ids ↔ a ∈ ids := by
  rw [ofList, mem_dropRepeats, (Sorted.sort_perm compare ids).mem_iff]

lemma ofList_ascending (ids : List TagId) : (ofList ids).Ascending := by
  refine dropRepeats_pairwise ((Sorted.sort_pairwise compare ids).imp ?_)
  intro a b hab
  exact Nat.isLE_compare.mp hab

/-! ### Sets as finite sets -/

/-- The members of a set, without their order. -/
def members (s : TagSet) : Finset TagId :=
  s.ids.toFinset

@[simp] lemma mem_members {s : TagSet} {x : TagId} : x ∈ s.members ↔ x ∈ s.ids :=
  List.mem_toFinset

lemma members_empty : empty.members = ∅ :=
  rfl

lemma members_ofList (ids : List TagId) : (ofList ids).members = ids.toFinset := by
  ext a
  simp

lemma members_insert (s : TagSet) (x : TagId) :
    (s.insert x).members = Insert.insert x s.members := by
  ext a
  simp

lemma members_union (s other : TagSet) : (s.union other).members = s.members ∪ other.members := by
  ext a
  simp

lemma Ascending.ids_eq_iff {s other : TagSet} (hs : s.Ascending) (ho : other.Ascending) :
    s.ids = other.ids ↔ s.members = other.members := by
  constructor
  · intro h
    rw [members, members, h]
  · intro h
    refine (ascending_iff.mp hs).eq_of_mem_iff (ascending_iff.mp ho) fun a => ?_
    rw [← mem_members, h, mem_members]

/-! ### Sets that come about by the operations -/

/-- How a set comes about: from nothing or from a list, then tag by tag and set by set. -/
inductive Construction where
  | empty
  | ofList (ids : List TagId)
  | insert (c : Construction) (id : TagId)
  | union (c other : Construction)

namespace Construction

def result : Construction → TagSet
  | empty => TagSet.empty
  | ofList ids => TagSet.ofList ids
  | insert c id => c.result.insert id
  | union c other => c.result.union other.result

def members : Construction → Finset TagId
  | empty => ∅
  | ofList ids => ids.toFinset
  | insert c id => Insert.insert id c.members
  | union c other => c.members ∪ other.members

lemma result_ascending (c : Construction) : c.result.Ascending := by
  induction c with
  | empty => exact empty_ascending
  | ofList ids => exact ofList_ascending ids
  | insert c id ih => exact insert_ascending ih id
  | union c other ih _ => exact union_ascending ih other.result

lemma members_result (c : Construction) : c.result.members = c.members := by
  induction c with
  | empty => exact members_empty
  | ofList ids => exact members_ofList ids
  | insert c id ih => rw [result, members_insert, ih, members]
  | union c other ih ih' => rw [result, members_union, ih, ih', members]

/-- A set that comes about by the operations is canonical: its list ascends and holds what was put
in, a search and an intersection test decide membership and a common member, and two such sets with
the same members are the same list. -/
theorem result_canonical (c other : Construction) :
    c.result.Ascending ∧
    c.result.members = c.members ∧
    (∀ x, c.result.contains x = true ↔ x ∈ c.result.members) ∧
    (∀ x, (c.result.insert x).members = Insert.insert x c.result.members) ∧
    (c.result.union other.result).members = c.result.members ∪ other.result.members ∧
    (c.result.intersects other.result = true ↔
      ∃ x, x ∈ c.result.members ∧ x ∈ other.result.members) ∧
    c.result.intersects other.result = other.result.intersects c.result ∧
    (c.result.ids = other.result.ids ↔ c.result.members = other.result.members) := by
  have hc := c.result_ascending
  have ho := other.result_ascending
  refine ⟨hc, c.members_result, ?_, members_insert c.result, members_union c.result other.result,
    ?_, intersects_comm hc ho, hc.ids_eq_iff ho⟩
  · intro x
    rw [contains_iff hc, mem_members]
  · rw [intersects_iff hc ho]
    simp only [mem_members]

end Construction

/-- Repetitions and the order of insertions leave no trace. -/
example : ((ofList [2, 0, 2]).insert 1).ids = ((ofList [1, 0]).union (ofList [2])).ids := by
  cbv

end ImportFence.TagSet
