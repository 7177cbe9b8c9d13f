import ImportFence.Proofs.Declarations
import ImportFence.Proofs.FirstFault
import ImportFence.Proofs.LiteralText
import ImportFence.Proofs.ParsedSource

/-!
# The public interface

The statements at the top of a source that assign to the name of the interface, or extend it, build
it up: the last one that assigns starts it anew, and those behind it extend it. A package that is
declared with an interface exports its names, and keeps them in the order in which they first occur.
-/

namespace ImportFence

/-! ### Names kept once -/

lemma mem_firstOccurrences {names : List String} {n : String} :
    n ∈ firstOccurrences names ↔ n ∈ names := by
  rw [firstOccurrences_eq_eraseDups, List.mem_eraseDups]

lemma pairwise_firstOccurrences (names : List String) :
    (firstOccurrences names).Pairwise fun x y => names.idxOf x < names.idxOf y := by
  induction names using List.reverseRecOn with
  | nil => exact List.Pairwise.nil
  | append_singleton names n ih =>
    have hearlier : (firstOccurrences names).Pairwise fun x y =>
        (names ++ [n]).idxOf x < (names ++ [n]).idxOf y := by
      refine ih.imp_of_mem fun {x y} hx hy hlt => ?_
      rwa [List.idxOf_append_of_mem (mem_firstOccurrences.mp hx),
        List.idxOf_append_of_mem (mem_firstOccurrences.mp hy)]
    rw [firstOccurrences_concat]
    split
    · exact hearlier
    · next hnew =>
      refine List.pairwise_append.mpr ⟨hearlier, List.pairwise_singleton _ _, ?_⟩
      intro x hx y hy
      obtain rfl := List.mem_singleton.mp hy
      rw [mem_firstOccurrences] at hx hnew
      rw [List.idxOf_append_of_mem hx, List.idxOf_append_of_notMem hnew]
      exact Nat.lt_add_right _ (List.idxOf_lt_length_of_mem hx)

lemma Package.Follows.exports_iff {sourceRoots : List Path} {p : Package} {d : Declaration}
    (h : p.Follows sourceRoots d) (x : String) :
    p.exports x = true ↔ ∃ names ∈ d.publicNames, x ∈ names := by
  rw [Package.exports, h.publicNames_eq]
  cases d.publicNames <;> simp [mem_firstOccurrences]

/-! ### Building up the interface -/

namespace Source

open Statement

/-- What statements build up: the names in those from the last one that assigns on, or in all if they
only extend. -/
def BuildsUp (found : List InterfaceStatement) (names : List String) : Prop :=
  ∃ before first further, found = before ++ first :: further ∧
    (∀ s ∈ further, s.extending = true) ∧ (first.extending = true → before = []) ∧
    names = (first :: further).flatMap (·.names)

lemma BuildsUp.assign (found : List InterfaceStatement) {s : InterfaceStatement}
    (h : s.extending = false) : BuildsUp (found ++ [s]) s.names :=
  ⟨found, s, [], rfl, by simp, by simp [h], by simp⟩

lemma BuildsUp.extend {found : List InterfaceStatement} {names : List String}
    (hfound : BuildsUp found names) {s : InterfaceStatement} (h : s.extending = true) :
    BuildsUp (found ++ [s]) (names ++ s.names) := by
  obtain ⟨before, first, further, rfl, hfurther, hfirst, rfl⟩ := hfound
  refine ⟨before, first, further ++ [s], by simp, ?_, hfirst, by simp⟩
  intro s' hs'
  rcases List.mem_append.mp hs' with hs' | hs'
  · exact hfurther s' hs'
  · rwa [List.mem_singleton.mp hs']

lemma interfaceAfter_of_none {s : Statement} (h : s.interface? = none)
    (names : Option (List String)) : interfaceAfter names s = names := by
  cases s with
  | interface i => cases h
  | _ => rfl

lemma eq_interface {s : Statement} {i : InterfaceStatement} (h : s.interface? = some i) :
    s = .interface i := by
  cases s with
  | interface j =>
    cases h
    rfl
  | _ => cases h

lemma interfaceAfter_buildsUp {found : List InterfaceStatement} {names : Option (List String)}
    (hnone : names = none → found = []) (hsome : ∀ known ∈ names, BuildsUp found known)
    (s : InterfaceStatement) :
    ∃ built, interfaceAfter names (.interface s) = some built ∧ BuildsUp (found ++ [s]) built := by
  cases hs : s.extending with
  | false =>
    refine ⟨s.names, ?_, BuildsUp.assign found hs⟩
    simp [interfaceAfter, hs]
  | true =>
    cases names with
    | none =>
      obtain rfl := hnone rfl
      refine ⟨s.names, by simp [interfaceAfter], [], s, [], rfl, by simp, fun _ => rfl, by simp⟩
    | some known =>
      refine ⟨known ++ s.names, ?_, (hsome known rfl).extend hs⟩
      simp [interfaceAfter, hs]

lemma foldl_interfaceAfter (statements : List Statement) :
    (statements.foldl interfaceAfter none = none ↔ statements.filterMap interface? = []) ∧
    ∀ names, statements.foldl interfaceAfter none = some names →
      BuildsUp (statements.filterMap interface?) names := by
  induction statements using List.reverseRecOn with
  | nil => exact ⟨by simp, nofun⟩
  | append_singleton statements s ih =>
    rw [List.foldl_concat, List.filterMap_append]
    cases hs : s.interface? with
    | none =>
      rwa [interfaceAfter_of_none hs, List.filterMap_cons_none hs, List.filterMap_nil,
        List.append_nil]
    | some i =>
      obtain rfl := eq_interface hs
      obtain ⟨built, hbuilt, hbuilds⟩ := interfaceAfter_buildsUp ih.1.mp ih.2 i
      rw [hbuilt, List.filterMap_cons_some hs, List.filterMap_nil]
      refine ⟨by simp, fun names hnames => ?_⟩
      cases hnames
      exact hbuilds

lemma publicNames_eq_ok {source : String} {tree : Tree} (h : parse source.toList = .ok tree) :
    publicNames source = .ok (tree.statements.foldl interfaceAfter none) := by
  rw [publicNames, h]
  rfl

/-- The interface of a source that parses is what the statements at its top build up, and packages
that are declared with it export its names. -/
theorem publicNames_built_up {source : String} {tree : Tree} (h : parse source.toList = .ok tree) :
    ((outline 0 (lines (scan source.toList))).flatMap TopLevel.lines = lines (scan source.toList) ∧
      (∀ part ∈ outline 0 (lines (scan source.toList)), part.Fits 0) ∧
      tree.statements.filterMap interface? =
        (outline 0 (lines (scan source.toList))).flatMap TopLevel.interfaces) ∧
    (∀ (front : List Token) (a b c : Token) (back : List Token) (text : String),
      tokens (scan source.toList) = front ++ a :: b :: c :: back → b.kind = .stringText text →
      ∃ before opening closing after,
        source.toList = before ++ (opening ++ (text.toList ++ (closing ++ after))) ∧
        a.start = Position.start.after before ∧
        a.kind.Spells opening ∧ c.kind.Spells closing) ∧
    ∃ result, publicNames source = .ok result ∧
      (result = none ↔ tree.statements.filterMap interface? = []) ∧
      (∀ names, result = some names → BuildsUp (tree.statements.filterMap interface?) names) ∧
      ∀ (declarations : List Declaration) (sourceRoots : List Path) (t : PackageTree),
        PackageTree.build declarations sourceRoots = .ok t →
        ∀ (k : Nat) (d : Declaration), declarations[k]? = some d → d.publicNames = result →
          ∃ p : Package, t.packages[k]? = some p ∧
            (∀ x, p.exports x = true ↔ ∃ names ∈ result, x ∈ names) ∧
            ∀ names, result = some names → ∃ stored : List String,
              p.publicNames = some stored ∧ (∀ x, x ∈ stored ↔ x ∈ names) ∧
              stored.Pairwise fun x y => names.idxOf x < names.idxOf y := by
  obtain ⟨hnone, hsome⟩ := foldl_interfaceAfter tree.statements
  refine ⟨⟨flatMap_outline 0 _, fits_outline 0 _, interfaces_of_parse h⟩,
    fun _ _ _ _ _ _ htokens hb => exists_text_between htokens hb, _, publicNames_eq_ok h, hnone,
    hsome, ?_⟩
  intro declarations sourceRoots t ht k d hd hresult
  have hfollows := (PackageTree.build_follows ht).package
  obtain ⟨hk, rfl⟩ := List.getElem?_eq_some_iff.mp hd
  have hk' : k < t.packages.length := hfollows.length_eq ▸ hk
  have hp : (t.packages[k]).Follows sourceRoots declarations[k] := hfollows.get hk' hk
  refine ⟨t.packages[k], List.getElem?_eq_getElem hk', fun x => ?_, fun names hnames => ?_⟩
  · rw [hp.exports_iff, hresult]
  · refine ⟨firstOccurrences names, ?_, fun x => mem_firstOccurrences,
      pairwise_firstOccurrences names⟩
    rw [hp.publicNames_eq, hresult, hnames]
    rfl

namespace Sample

/-- An interface that is assigned, assigned anew and extended. -/
def interfaceSource : String :=
  "__all__ = ['a']\n__all__: t = ['b', c]; __all__ += ('d', 'b')\n"

def interfaceNames : List String := ["b", "d", "b"]

def interfaceDeclarations : List Declaration :=
  [⟨⟨"p"⟩, ["t"], true, some interfaceNames⟩]

def interfaceTree : PackageTree :=
  ⟨[⟨0, ⟨"p"⟩, "p", ⟨[0]⟩, true, some ["b", "d"]⟩], ⟨["t"], [("t", 0)]⟩⟩

end Sample

theorem publicNames_built_up_sample :
    publicNames Sample.interfaceSource = .ok (some Sample.interfaceNames) ∧
    PackageTree.build Sample.interfaceDeclarations [⟨"."⟩] = .ok Sample.interfaceTree ∧
    ∃ tree, parse Sample.interfaceSource.toList = .ok tree ∧
      BuildsUp (tree.statements.filterMap interface?) Sample.interfaceNames ∧
      ∃ p : Package, Sample.interfaceTree.packages[0]? = some p ∧
        (∀ x, p.exports x = true ↔ x ∈ Sample.interfaceNames) := by
  have hnames : publicNames Sample.interfaceSource = .ok (some Sample.interfaceNames) := by
    decide +kernel
  have hbuild : PackageTree.build Sample.interfaceDeclarations [⟨"."⟩] = .ok Sample.interfaceTree := by
    decide +kernel
  obtain ⟨tree, hparse, -⟩ := Traversal.bind_eq_ok_iff.mp hnames
  obtain ⟨-, -, result, hresult, -, hbuilds, hpackages⟩ := publicNames_built_up hparse
  obtain rfl : result = some Sample.interfaceNames := Except.ok.inj (hresult.symm.trans hnames)
  obtain ⟨p, hp, hexports, -⟩ := hpackages _ _ _ hbuild 0 _ rfl rfl
  refine ⟨hnames, hbuild, tree, hparse, hbuilds _ rfl, p, hp, fun x => ?_⟩
  rw [hexports]
  simp

/-- The names of an interface are not always what stands between the quotes: fields are left out. -/
theorem publicNames_formatted :
    publicNames ("__all__ = [f\"" ++ "a\x7bx\x7db" ++ "\"]\n") = .ok (some ["ab"]) ∧
    publicNames ("__all__ = [f\"" ++ "a\x7bx\x7db" ++ "\"]\n") ≠ .ok (some ["a\x7bx\x7db"]) := by
  decide +kernel

end Source

end ImportFence
