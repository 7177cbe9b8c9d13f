import ImportFence.Sorted
import Mathlib.Data.List.Sort
import Mathlib.Tactic.Common

/-!
# Ascending and sorted lists

Insertion keeps a list strictly ascending and adds one member, so `Sorted.ofList` is the ascending
list of the given members. `Sorted.sort` permutes its list into order, and it is stable: picking
some members out before or after sorting is the same. What it returns depends only on the order
within each class of equal members.
-/

namespace ImportFence.Sorted
open Std

variable {α : Type} {cmp : α → α → Ordering}

/-- Each member is smaller than all behind it. -/
def Ascending (cmp : α → α → Ordering) (xs : List α) : Prop :=
  xs.Pairwise fun a b => cmp a b = .lt

lemma mem_insert [LawfulEqCmp cmp] {x a : α} {xs : List α} :
    a ∈ insert cmp x xs ↔ a = x ∨ a ∈ xs := by
  induction xs with
  | nil => simp [insert]
  | cons y ys ih =>
    rw [insert]
    cases h : cmp x y with
    | lt => simp
    | eq =>
      have hxy : x = y := LawfulEqCmp.eq_of_compare h
      subst hxy
      simp
    | gt =>
      simp only [List.mem_cons, ih]
      tauto

lemma insert_ascending [TransCmp cmp] [LawfulEqCmp cmp] (x : α) {xs : List α}
    (h : Ascending cmp xs) : Ascending cmp (insert cmp x xs) := by
  induction xs with
  | nil => simp [insert, Ascending]
  | cons y ys ih =>
    obtain ⟨hy, hys⟩ := List.pairwise_cons.mp h
    rw [insert]
    cases hxy : cmp x y with
    | lt =>
      refine List.pairwise_cons.mpr ⟨?_, h⟩
      intro b hb
      rcases List.mem_cons.mp hb with rfl | hb
      · exact hxy
      · exact TransCmp.lt_trans hxy (hy b hb)
    | eq => exact h
    | gt =>
      refine List.pairwise_cons.mpr ⟨?_, ih hys⟩
      intro b hb
      rcases mem_insert.mp hb with rfl | hb
      · exact OrientedCmp.lt_of_gt hxy
      · exact hy b hb

lemma mem_foldl_insert [LawfulEqCmp cmp] {a : α} (xs set : List α) :
    a ∈ xs.foldl (fun set x => insert cmp x set) set ↔ a ∈ set ∨ a ∈ xs := by
  induction xs generalizing set with
  | nil => simp
  | cons x xs ih =>
    rw [List.foldl_cons, ih, mem_insert, List.mem_cons]
    tauto

lemma foldl_insert_ascending [TransCmp cmp] [LawfulEqCmp cmp] (xs : List α) {set : List α}
    (h : Ascending cmp set) : Ascending cmp (xs.foldl (fun set x => insert cmp x set) set) := by
  induction xs generalizing set with
  | nil => exact h
  | cons x xs ih => exact ih (insert_ascending x h)

@[simp] lemma mem_ofList [LawfulEqCmp cmp] {a : α} {xs : List α} :
    a ∈ ofList cmp xs ↔ a ∈ xs := by
  rw [ofList, mem_foldl_insert]
  simp

lemma ofList_ascending [TransCmp cmp] [LawfulEqCmp cmp] (xs : List α) :
    Ascending cmp (ofList cmp xs) :=
  foldl_insert_ascending xs List.Pairwise.nil

lemma Ascending.eq_of_mem_iff [TransCmp cmp] {xs ys : List α} (hxs : Ascending cmp xs)
    (hys : Ascending cmp ys) (h : ∀ a, a ∈ xs ↔ a ∈ ys) : xs = ys := by
  have hirrefl : Std.Irrefl fun a b : α => cmp a b = .lt :=
    ⟨fun a => by simp [ReflCmp.compare_self]⟩
  have hantisymm : Std.Antisymm fun a b : α => cmp a b = .lt :=
    ⟨fun a b hab hba => by
      have := TransCmp.lt_trans hab hba
      simp [ReflCmp.compare_self] at this⟩
  exact List.Pairwise.eq_of_mem_iff hxs hys h

/-! ### Sorting -/

lemma sort_perm (cmp : α → α → Ordering) (xs : List α) : (sort cmp xs).Perm xs :=
  List.mergeSort_perm xs _

lemma isLE_total (cmp : α → α → Ordering) [OrientedCmp cmp] (a b : α) :
    (cmp a b).isLE || (cmp b a).isLE := by
  rw [(OrientedCmp.eq_swap : cmp a b = (cmp b a).swap)]
  cases cmp b a <;> rfl

lemma sort_pairwise (cmp : α → α → Ordering) [TransCmp cmp] (xs : List α) :
    (sort cmp xs).Pairwise fun a b => (cmp a b).isLE :=
  List.pairwise_mergeSort (fun _ _ _ => TransCmp.isLE_trans) (isLE_total cmp) xs

lemma sort_ascending [TransCmp cmp] [LawfulEqCmp cmp] {xs : List α} (h : xs.Nodup) :
    Ascending cmp (sort cmp xs) := by
  have hnodup : (sort cmp xs).Nodup := (sort_perm cmp xs).nodup_iff.mpr h
  refine (sort_pairwise cmp xs).imp₂ ?_ hnodup
  intro a b hle hne
  have htie : cmp a b ≠ .eq := fun heq => hne (LawfulEqCmp.eq_of_compare heq)
  cases hab : cmp a b <;> simp_all

/-- In a sorted list, the members that an element must follow stand in front. -/
lemma takeWhile_of_split [OrientedCmp cmp] {a : α} {front back : List α}
    (hfront : ∀ b ∈ front, cmp a b = .gt) (hback : ∀ b ∈ back, (cmp a b).isLE) :
    (front ++ back).takeWhile (fun b => cmp a b = .gt) = front := by
  rw [List.takeWhile_append_of_pos (by simpa using hfront)]
  cases back with
  | nil => simp
  | cons b back =>
    have hb : cmp a b ≠ .gt := by
      intro h
      have hle := hback b List.mem_cons_self
      simp [h] at hle
    simp [hb]

lemma sort_cons (cmp : α → α → Ordering) [TransCmp cmp] (a : α) (xs : List α) :
    ∃ front back, sort cmp (a :: xs) = front ++ a :: back ∧ sort cmp xs = front ++ back ∧
      (∀ b ∈ front, cmp a b = .gt) ∧ ∀ b ∈ back, (cmp a b).isLE := by
  obtain ⟨front, back, hcons, hrest, hfront⟩ :=
    List.mergeSort_cons (fun _ _ _ => TransCmp.isLE_trans) (isLE_total cmp) a xs
  refine ⟨front, back, hcons, hrest, ?_, ?_⟩
  · intro b hb
    have h := hfront b hb
    cases hc : cmp a b <;> simp_all
  · have hsorted := sort_pairwise cmp (a :: xs)
    rw [sort, hcons] at hsorted
    have htail := (List.pairwise_append.mp hsorted).2.1
    exact (List.pairwise_cons.mp htail).1

/-- Sorting is stable: it commutes with picking out members. -/
theorem filter_sort [TransCmp cmp] (p : α → Bool) (xs : List α) :
    (sort cmp xs).filter p = sort cmp (xs.filter p) := by
  induction xs with
  | nil => simp [sort]
  | cons a xs ih =>
    obtain ⟨front, back, hcons, hrest, hfront, hback⟩ := sort_cons cmp a xs
    rw [hrest, List.filter_append] at ih
    by_cases hp : p a
    · obtain ⟨front', back', hcons', hrest', hfront', hback'⟩ :=
        sort_cons cmp a (xs.filter p)
      have hsplit : front.filter p ++ back.filter p = front' ++ back' := ih.trans hrest'
      have hf : front.filter p = front' := by
        rw [← takeWhile_of_split hfront' hback', ← hsplit]
        refine (takeWhile_of_split ?_ ?_).symm
        · intro b hb
          exact hfront b (List.mem_of_mem_filter hb)
        · intro b hb
          exact hback b (List.mem_of_mem_filter hb)
      rw [hf] at hsplit
      have hb : back.filter p = back' := List.append_cancel_left hsplit
      rw [hcons, List.filter_cons_of_pos hp, hcons', List.filter_append,
        List.filter_cons_of_pos hp, hf, hb]
    · rw [hcons, List.filter_cons_of_neg hp, List.filter_append, List.filter_cons_of_neg hp, ih]

lemma mem_iff_of_filter_ties [TransCmp cmp] {xs ys : List α}
    (hties : ∀ a, xs.filter (fun b => cmp a b = .eq) = ys.filter (fun b => cmp a b = .eq)) (a : α) :
    a ∈ xs ↔ a ∈ ys := by
  have hself : cmp a a = .eq := ReflCmp.compare_self
  have hiff : a ∈ xs.filter (fun b => cmp a b = .eq) ↔ a ∈ ys.filter (fun b => cmp a b = .eq) := by
    rw [hties a]
  simpa [hself] using hiff

/-- A sorted list is determined by its ties: by the members equal to each, in their order. -/
theorem eq_of_filter_ties [TransCmp cmp] {xs ys : List α}
    (hxs : xs.Pairwise fun a b => (cmp a b).isLE) (hys : ys.Pairwise fun a b => (cmp a b).isLE)
    (hties : ∀ a, xs.filter (fun b => cmp a b = .eq) = ys.filter (fun b => cmp a b = .eq)) :
    xs = ys := by
  have hself : ∀ a : α, cmp a a = .eq := fun a => ReflCmp.compare_self
  induction xs generalizing ys with
  | nil =>
    rw [eq_comm, List.eq_nil_iff_forall_not_mem]
    intro a ha
    simpa using (mem_iff_of_filter_ties hties a).mpr ha
  | cons x xs ih =>
    have hmem := mem_iff_of_filter_ties hties
    cases ys with
    | nil => exact absurd ((hmem x).mp List.mem_cons_self) List.not_mem_nil
    | cons y ys =>
      obtain ⟨hx, hxs'⟩ := List.pairwise_cons.mp hxs
      obtain ⟨hy, hys'⟩ := List.pairwise_cons.mp hys
      -- neither head comes before the other, so they tie, and the ties of `x` begin with both
      have hle : (cmp x y).isLE := by
        rcases List.mem_cons.mp ((hmem y).mpr List.mem_cons_self) with rfl | hyx
        · simp [hself]
        · exact hx y hyx
      have hge : (cmp y x).isLE := by
        rcases List.mem_cons.mp ((hmem x).mp List.mem_cons_self) with rfl | hxy
        · simp [hself]
        · exact hy x hxy
      have htie : cmp x y = .eq := by
        rw [(OrientedCmp.eq_swap : cmp y x = (cmp x y).swap)] at hge
        cases hxy : cmp x y <;> simp_all
      have hheads := hties x
      rw [List.filter_cons_of_pos (by simpa using hself x),
        List.filter_cons_of_pos (by simpa using htie)] at hheads
      obtain ⟨rfl, -⟩ := List.cons.inj hheads
      rw [ih hxs' hys']
      intro a
      have ha := hties a
      by_cases hax : cmp a x = .eq
      · rw [List.filter_cons_of_pos (by simpa using hax),
          List.filter_cons_of_pos (by simpa using hax)] at ha
        exact (List.cons.inj ha).2
      · rwa [List.filter_cons_of_neg (by simpa using hax),
          List.filter_cons_of_neg (by simpa using hax)] at ha

/-- Sorting forgets the order of its list, up to the order within each tie. -/
lemma sort_congr [TransCmp cmp] {xs ys : List α}
    (hties : ∀ a, xs.filter (fun b => cmp a b = .eq) = ys.filter (fun b => cmp a b = .eq)) :
    sort cmp xs = sort cmp ys := by
  refine eq_of_filter_ties (sort_pairwise cmp xs) (sort_pairwise cmp ys) ?_
  intro a
  rw [filter_sort, filter_sort, hties a]

/-- Groups of equal members that were collected from the last one to the first are sorted into their
order, each as it is. -/
theorem sort_flatMap_reverse [TransCmp cmp] {β : Type} {f : β → List α} {xs : List β}
    (hsame : ∀ x ∈ xs, ∀ a ∈ f x, ∀ b ∈ f x, cmp a b = .eq)
    (hless : xs.Pairwise fun x y => ∀ a ∈ f x, ∀ b ∈ f y, cmp a b = .lt) :
    sort cmp (xs.reverse.flatMap f) = xs.flatMap f := by
  have hsorted : sort cmp (xs.flatMap f) = xs.flatMap f := by
    refine List.mergeSort_of_pairwise (List.pairwise_flatMap.mpr ⟨fun x hx => ?_, ?_⟩)
    · exact List.pairwise_of_forall_mem_list fun a ha b hb => by simp [hsame x hx a ha b hb]
    · exact hless.imp fun hxy a ha b hb => by simp [hxy a ha b hb]
  refine (sort_congr fun a => ?_).trans hsorted
  clear hsame hsorted
  induction xs with
  | nil => rfl
  | cons x xs ih =>
    obtain ⟨hx, hxs⟩ := List.pairwise_cons.mp hless
    rw [List.reverse_cons, List.flatMap_append, List.flatMap_singleton, List.flatMap_cons,
      List.filter_append, List.filter_append, ih hxs]
    -- if some members of a group are equal to the given one, those of the other groups are not
    cases hties : (f x).filter fun b => cmp a b = .eq with
    | nil => rw [List.append_nil, List.nil_append]
    | cons b ties =>
      have hb : b ∈ (f x).filter fun b => cmp a b = .eq := by simp [hties]
      obtain ⟨hb, hab⟩ := List.mem_filter.mp hb
      have hnone : (xs.flatMap f).filter (fun b => cmp a b = .eq) = [] := by
        rw [List.filter_eq_nil_iff]
        intro c hc
        obtain ⟨y, hy, hc⟩ := List.mem_flatMap.mp hc
        have hlt : cmp a c = .lt := by
          rw [TransCmp.congr_left (of_decide_eq_true hab)]
          exact hx y hy b hb c hc
        simp [hlt]
      rw [hnone, List.append_nil, List.nil_append]

end ImportFence.Sorted
