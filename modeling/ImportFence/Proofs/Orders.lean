import ImportFence.Check
import ImportFence.Sync
import Mathlib.Tactic.Common

/-!
# Orders

The comparisons by which violations, edges, warnings and tag pairs are sorted are total preorders.
The one on tag pairs tells different pairs apart, and the one on paths tells components apart.
-/

namespace ImportFence
open Std

lemma transCmp_key {α β : Type} (cmp : α → α → Ordering) [TransCmp cmp] (key : β → α) :
    TransCmp fun a b => cmp (key a) (key b) where
  eq_swap := OrientedCmp.eq_swap
  isLE_trans := TransCmp.isLE_trans

lemma isLE_of_compareLex {α : Type} {first second third : α → α → Ordering} {a b : α}
    (h : (compareLex first (compareLex second third) a b).isLE) :
    (compareLex first second a b).isLE := by
  simp only [compareLex] at h ⊢
  revert h
  cases first a b <;> cases second a b <;> simp [Ordering.then]

instance : TransCmp Component.compare :=
  inferInstanceAs (TransCmp (compareLex (compareOn Component.rank) (compareOn Component.text)))

instance : TransCmp Path.compare :=
  transCmp_key (List.compareLex Component.compare) Path.components

instance : LawfulEqCmp Component.compare where
  compare_self := ReflCmp.compare_self
  eq_of_compare := by
    intro a b h
    have hparts := Ordering.then_eq_eq.mp h
    have hrank : a.rank = b.rank := LawfulEqOrd.eq_of_compare hparts.1
    have htext : a.text = b.text := LawfulEqOrd.eq_of_compare hparts.2
    cases a <;> cases b <;> simp_all [Component.rank, Component.text]

lemma Path.compare_eq_iff {a b : Path} : Path.compare a b = .eq ↔ a.same b = true := by
  rw [Path.same, decide_eq_true_iff, Path.compare]
  constructor
  · intro h
    exact LawfulEqCmp.eq_of_compare h
  · intro h
    rw [h]
    exact ReflCmp.compare_self

instance : TransCmp Symbol.compare :=
  inferInstanceAs (TransCmp (compareLex (compareOn Symbol.rank) (compareOn Symbol.text)))

instance : TransCmp Location.compare :=
  have := transCmp_key Path.compare Location.file
  inferInstanceAs (TransCmp (compareLex (fun a b : Location => Path.compare a.file b.file)
    (compareLex (compareOn (·.line)) (compareOn (·.column)))))

instance : TransCmp Violation.compare :=
  have := transCmp_key Location.compare Violation.location
  have := transCmp_key Symbol.compare fun v : Violation => v.edge.symbol
  inferInstanceAs (TransCmp (compareLex
    (fun a b : Violation => Location.compare a.location b.location)
    (compareLex (compareOn (·.kind.code))
      (fun a b => Symbol.compare a.edge.symbol b.edge.symbol))))

instance : TransCmp Warning.compare :=
  transCmp_key Path.compare Warning.file

instance : TransCmp Edge.compare :=
  have := transCmp_key Path.compare Edge.file
  have := transCmp_key Symbol.compare Edge.symbol
  inferInstanceAs (TransCmp (compareLex (fun a b : Edge => Path.compare a.file b.file)
    (compareLex (compareOn (·.line)) (compareLex (compareOn (·.column))
      (compareLex (fun a b => Symbol.compare a.symbol b.symbol) (compareOn (·.toPackage)))))))

instance : TransCmp TagPair.compare :=
  inferInstanceAs (TransCmp (compareLex (compareOn TagPair.source) (compareOn TagPair.allowed)))

instance : LawfulEqCmp TagPair.compare where
  compare_self := ReflCmp.compare_self
  eq_of_compare := by
    intro a b h
    have hparts := Ordering.then_eq_eq.mp h
    have hsource : a.source = b.source := LawfulEqOrd.eq_of_compare hparts.1
    have hallowed : a.allowed = b.allowed := LawfulEqOrd.eq_of_compare hparts.2
    cases a
    cases b
    simp_all

end ImportFence
