import Mathlib.Data.List.Basic
import Mathlib.Tactic.Common

/-!
# Traversals that may fail

What a chain of steps or a pass over a list returns when every step succeeds, and which error it
returns otherwise: that of the first step that fails.
-/

namespace ImportFence.Traversal

variable {ε α β : Type}

lemma bind_eq_ok_iff {x : Except ε α} {f : α → Except ε β} {b : β} :
    x >>= f = .ok b ↔ ∃ a, x = .ok a ∧ f a = .ok b := by
  cases x with
  | error e =>
    constructor
    · intro h
      cases h
    · rintro ⟨a, h, -⟩
      cases h
  | ok a =>
    constructor
    · intro h
      exact ⟨a, rfl, h⟩
    · rintro ⟨a', h, hf⟩
      cases h
      exact hf

lemma bind_eq_error_iff {x : Except ε α} {f : α → Except ε β} {e : ε} :
    x >>= f = .error e ↔ x = .error e ∨ ∃ a, x = .ok a ∧ f a = .error e := by
  cases x with
  | error e' =>
    change Except.error e' = Except.error e ↔ _
    simp
  | ok a =>
    change f a = Except.error e ↔ _
    simp

lemma map_eq_ok_iff {x : Except ε α} {f : α → β} {b : β} :
    x.map f = .ok b ↔ ∃ a, x = .ok a ∧ f a = b := by
  cases x <;> simp [Except.map]

lemma mapError_eq_ok_iff {ε' : Type} {x : Except ε α} {f : ε → ε'} {a : α} :
    x.mapError f = .ok a ↔ x = .ok a := by
  cases x <;> simp [Except.mapError]

lemma mapM_eq_ok_map {f : α → Except ε β} {g : α → β} {xs : List α}
    (h : ∀ x ∈ xs, f x = .ok (g x)) : xs.mapM f = .ok (xs.map g) := by
  induction xs with
  | nil => rfl
  | cons x xs ih =>
    rw [List.mapM_cons, h x List.mem_cons_self, ih (fun y hy => h y (List.mem_cons_of_mem x hy))]
    rfl

lemma exists_mapM_ok {f : α → Except ε β} {xs : List α} (h : ∀ x ∈ xs, ∃ y, f x = .ok y) :
    ∃ ys, xs.mapM f = .ok ys := by
  induction xs with
  | nil => exact ⟨[], rfl⟩
  | cons x xs ih =>
    obtain ⟨y, hy⟩ := h x List.mem_cons_self
    obtain ⟨ys, hys⟩ := ih fun z hz => h z (List.mem_cons_of_mem x hz)
    refine ⟨y :: ys, ?_⟩
    rw [List.mapM_cons, hy, hys]
    rfl

lemma mapM_eq_error_iff {f : α → Except ε β} {fault? : α → Option ε}
    (hf : ∀ x e, f x = .error e ↔ fault? x = some e) {xs : List α} {e : ε} :
    xs.mapM f = .error e ↔ xs.findSome? fault? = some e := by
  induction xs with
  | nil =>
    constructor
    · intro h
      cases h
    · intro h
      simp at h
  | cons x xs ih =>
    rw [List.mapM_cons, List.findSome?_cons]
    cases hx : f x with
    | error e' =>
      rw [(hf x e').mp hx]
      change Except.error e' = Except.error e ↔ some e' = some e
      simp
    | ok y =>
      have hnone : fault? x = none := by
        cases hfault : fault? x with
        | none => rfl
        | some e' =>
          have herr := (hf x e').mpr hfault
          rw [hx] at herr
          cases herr
      rw [hnone, ← ih]
      cases xs.mapM f with
      | error e' => rfl
      | ok ys =>
        constructor <;> intro h <;> cases h

lemma foldlM_eq_ok_congr {f g : β → α → Except ε β} {xs : List α}
    (h : ∀ b x b', f b x = .ok b' ↔ g b x = .ok b') {b b' : β} :
    xs.foldlM f b = .ok b' ↔ xs.foldlM g b = .ok b' := by
  induction xs generalizing b with
  | nil => rfl
  | cons x xs ih => simp only [List.foldlM_cons, bind_eq_ok_iff, h, ih]

end ImportFence.Traversal
