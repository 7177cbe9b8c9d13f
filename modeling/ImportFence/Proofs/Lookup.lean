import ImportFence.Proofs.Declarations
import ImportFence.Proofs.ImportGraph
import ImportFence.Proofs.ModuleNames

/-!
# Who owns a file and who owns a module

A file belongs to the package with the deepest root around it, a module to the one with the longest
module name that covers it. Below a single source root the two look-ups agree on a file and on its
module, so that importing a file's module from its own package is a self-import.
-/

namespace ImportFence
open Std

/-- The heaviest member that fits, or nothing if none fits. -/
def Selects {α : Type} (xs : List α) (fits : α → Prop) (weight : α → Nat) : Option α → Prop
  | none => ∀ x ∈ xs, ¬ fits x
  | some x => x ∈ xs ∧ fits x ∧ ∀ y ∈ xs, fits y → weight y ≤ weight x

/-- Two selections among the same members agree if a member that is heaviest for both is unique. -/
lemma Selects.unique {α : Type} {xs ys : List α} {fits fits' : α → Prop} {weight weight' : α → Nat}
    {r r' : Option α} (h : Selects xs fits weight r) (h' : Selects ys fits' weight' r')
    (hfits : ∀ x, x ∈ xs ∧ fits x ↔ x ∈ ys ∧ fits' x)
    (hunique : ∀ x y, x ∈ xs ∧ fits x → y ∈ xs ∧ fits y → weight y ≤ weight x →
      weight' x ≤ weight' y → x = y) : r = r' := by
  cases r with
  | none =>
    cases r' with
    | none => rfl
    | some y =>
      obtain ⟨hy, hfit⟩ := (hfits y).mpr ⟨h'.1, h'.2.1⟩
      exact absurd hfit (h y hy)
  | some x =>
    obtain ⟨hx, hfit, hmax⟩ := h
    obtain ⟨hx', hfit'⟩ := (hfits x).mp ⟨hx, hfit⟩
    cases r' with
    | none => exact absurd hfit' (h' x hx')
    | some y =>
      obtain ⟨hy, hfity⟩ := (hfits y).mpr ⟨h'.1, h'.2.1⟩
      exact congrArg some (hunique x y ⟨hx, hfit⟩ ⟨hy, hfity⟩ (hmax y hy hfity)
        (h'.2.2 x hx' hfit'))

/-- Number of components of a package's root. -/
def Package.depth (p : Package) : Nat :=
  p.root.components.length

/-- The package's root lies around a file. -/
def Package.Contains (p : Package) (file : Path) : Prop :=
  p.root.components <+: file.steps

/-- On the way from a directory to the package's root no component has a dot. -/
def Package.DotFreeBelow (dir : Path) (p : Package) : Prop :=
  ∀ c ∈ p.root.steps.drop dir.steps.length, '.' ∉ c.text.toList

instance (dir : Path) (p : Package) : Decidable (p.DotFreeBelow dir) :=
  inferInstanceAs (Decidable (∀ c ∈ _, _))

lemma Package.DotFreeBelow.isSegment {dir : Path} {p : Package} (h : p.DotFreeBelow dir)
    {names : List String} (hsteps : p.root.steps = dir.steps ++ names.map .name) :
    ∀ n ∈ names, Module.IsSegment n := by
  intro n hn
  apply h (.name n)
  rw [hsteps, List.drop_left]
  exact List.mem_map_of_mem hn

instance : TransCmp Package.lookupOrder := by
  have hbytes : TransCmp fun a b : Package =>
      (compareOn (fun p : Package => Text.bytes p.module) a b).swap := by
    have hswap : (fun a b : Package =>
        (compareOn (fun p : Package => Text.bytes p.module) a b).swap) =
          fun a b => compareOn (fun p : Package => Text.bytes p.module) b a := by
      funext a b
      exact OrientedCmp.eq_swap.symm
    rw [hswap]
    exact TransCmp.opposite
  exact inferInstanceAs (TransCmp (compareLex
    (fun a b : Package => (compareOn (fun p : Package => Text.bytes p.module) a b).swap)
    (compareOn (·.module))))

lemma Package.bytes_le_of_lookupOrder {p q : Package} (h : (p.lookupOrder q).isLE) :
    Text.bytes q.module ≤ Text.bytes p.module := by
  by_contra hlt
  have hcmp : compareOn (fun p : Package => Text.bytes p.module) p q = .lt :=
    Nat.compare_eq_lt.mpr (Nat.lt_of_not_le hlt)
  simp [Package.lookupOrder, compareLex, hcmp] at h

namespace PackageTree

lemma foldl_deeper_some (ps : List Package) (b : Package) :
    ∃ p ∈ b :: ps, ps.foldl deeper (some b) = some p ∧ ∀ q ∈ b :: ps, q.depth ≤ p.depth := by
  induction ps generalizing b with
  | nil => exact ⟨b, List.mem_cons_self, rfl, by simp⟩
  | cons q ps ih =>
    rw [List.foldl_cons, deeper]
    split
    · rename_i hle
      obtain ⟨p, hp, hfold, hmax⟩ := ih q
      have hq := hmax q List.mem_cons_self
      refine ⟨p, List.mem_cons_of_mem b hp, hfold, ?_⟩
      rw [List.forall_mem_cons]
      exact ⟨Nat.le_trans hle hq, hmax⟩
    · rename_i hlt
      obtain ⟨p, hp, hfold, hmax⟩ := ih b
      obtain ⟨hb, hps⟩ := List.forall_mem_cons.mp hmax
      have hq : q.depth ≤ p.depth := Nat.le_trans (Nat.le_of_not_le hlt) hb
      refine ⟨p, ?_, hfold, ?_⟩
      · rcases List.mem_cons.mp hp with rfl | hp
        · exact List.mem_cons_self
        · exact List.mem_cons_of_mem b (List.mem_cons_of_mem q hp)
      · simp only [List.forall_mem_cons]
        exact ⟨hb, hq, hps⟩

theorem selects_resolve? (t : PackageTree) (file : Path) :
    Selects t.packages (·.Contains file) Package.depth (t.resolve? file) := by
  have hmem : ∀ p, p ∈ t.packages.filter (fun p => p.root.components.isPrefixOf file.steps) ↔
      p ∈ t.packages ∧ p.Contains file := by
    intro p
    rw [List.mem_filter, List.isPrefixOf_iff_prefix, Package.Contains]
  rw [resolve?]
  cases hfound : t.packages.filter fun p => p.root.components.isPrefixOf file.steps with
  | nil =>
    rw [hfound] at hmem
    intro p hp hfit
    exact absurd ((hmem p).mpr ⟨hp, hfit⟩) List.not_mem_nil
  | cons q ps =>
    rw [hfound] at hmem
    obtain ⟨p, hp, hfold, hmax⟩ := foldl_deeper_some ps q
    change Selects _ _ _ (ps.foldl deeper (some q))
    rw [hfold]
    obtain ⟨hin, hfit⟩ := (hmem p).mp hp
    exact ⟨hin, hfit, fun r hr hfitr => hmax r ((hmem r).mpr ⟨hr, hfitr⟩)⟩

theorem selects_resolveModule? (t : PackageTree) (module : String) :
    Selects t.packages (fun p => Module.covers p.module module = true)
      (fun p => Text.bytes p.module) (t.resolveModule? module) := by
  have hmem : ∀ p, p ∈ t.byModule ↔ p ∈ t.packages := fun p => (Sorted.sort_perm _ _).mem_iff
  cases hfound : t.resolveModule? module with
  | none =>
    intro p hp
    exact List.find?_eq_none.mp hfound p ((hmem p).mpr hp)
  | some p =>
    obtain ⟨hfit, front, back, hsplit, hfront⟩ := List.find?_eq_some_iff_append.mp hfound
    have hsorted := Sorted.sort_pairwise Package.lookupOrder t.packages
    change t.byModule.Pairwise _ at hsorted
    rw [hsplit] at hsorted
    have hback := (List.pairwise_cons.mp (List.pairwise_append.mp hsorted).2.1).1
    refine ⟨resolveModule?_mem hfound, hfit, ?_⟩
    intro q hq hfitq
    have hq' := (hmem q).mpr hq
    rw [hsplit, List.mem_append, List.mem_cons] at hq'
    rcases hq' with hq' | rfl | hq'
    · have hnot := hfront q hq'
      rw [hfitq] at hnot
      cases hnot
    · exact le_rfl
    · exact Package.bytes_le_of_lookupOrder (hback q hq')

lemma Follows.exists_names {root : Path} {t : PackageTree} {declarations : List Declaration}
    (ht : t.Follows [root] declarations) {p : Package} (hp : p ∈ t.packages) :
    ∃ names ≠ [], p.root.steps = root.steps ++ names.map .name ∧
      p.module = Text.join "." names ∧ ∀ n ∈ names, n ≠ "" := by
  obtain ⟨d, -, hd⟩ := ht.exists_declaration hp
  obtain ⟨names, hne, hsteps, hmodule⟩ := Module.ofDirectory?_single.mp hd.module_eq
  refine ⟨names, hne, hsteps, hmodule, ?_⟩
  intro n hn
  have hmem : .name n ∈ p.root.steps := by
    rw [hsteps]
    exact List.mem_append_right _ (List.mem_map_of_mem hn)
  exact Path.name_ne_empty hmem

end PackageTree

/-! ### A package inside another -/

namespace Sample

def nestedDeclarations : List Declaration :=
  [⟨⟨"src/a"⟩, ["outer"], false, none⟩, ⟨⟨"./src//a/b"⟩, ["inner"], false, none⟩]

def nestedTree : PackageTree where
  packages :=
    [⟨0, ⟨"src/a"⟩, "a", ⟨[0]⟩, false, none⟩, ⟨1, ⟨"src/a/b"⟩, "a.b", ⟨[1]⟩, false, none⟩]
  tags := ⟨["outer", "inner"], [("inner", 1), ("outer", 0)]⟩

end Sample

end ImportFence
