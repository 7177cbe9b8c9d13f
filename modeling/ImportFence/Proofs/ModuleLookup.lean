import ImportFence.Proofs.Lookup

/-!
# The longest module name wins

Module names are tried by their number of bytes, and equally long ones in ascending order. Of the
names that cover a module each begins the next, so the one with the most bytes is also the one with
the most segments. Packages under different source roots may share a name; sorting is stable, so the
one declared first is found.
-/

namespace ImportFence
open Std Text

namespace Module

def segments (module : String) : List String :=
  split '.' module

lemma segments_injective {a b : String} (h : segments a = segments b) : a = b := by
  have hchars : splitChars '.' a.toList = splitChars '.' b.toList := by
    have hlists := congrArg (List.map String.toList) h
    simpa [segments, split, Function.comp_def] using hlists
  have hjoined := congrArg (joinChars ['.']) hchars
  rw [joinChars_splitChars, joinChars_splitChars] at hjoined
  exact String.toList_inj.mp hjoined

lemma length_segments_le {a b module : String} (ha : segments a <+: segments module)
    (hb : segments b <+: segments module) (hbytes : bytes a ≤ bytes b) :
    (segments a).length ≤ (segments b).length := by
  rcases List.prefix_or_prefix_of_prefix ha hb with hab | hba
  · exact hab.length_le
  · have hbegins := isPrefix_of_covers (covers_iff.mpr hba)
    rw [eq_of_bytes_le hbegins hbytes]

lemma covers_append_iff {module more : String} :
    covers module (module ++ more) = true ↔ more = "" ∨ more.toList.head? = some '.' := by
  have hafter : after? module.toList (module ++ more).toList = some more.toList := by
    rw [after?, String.toList_append]
    exact List.isPrefixOf?_eq_some_iff_append_eq.mpr rfl
  rw [covers, hafter]
  cases hmore : more.toList with
  | nil =>
    have hempty : more = "" := String.toList_inj.mp hmore
    simp [hempty]
  | cons c rest =>
    have hne : more ≠ "" := by
      rintro rfl
      cases hmore
    simp [hne]

end Module

/-- Where the bytes of one text begin those of another, the second one may be cut behind them: a
character never begins inside another. -/
lemma isValid_rawEndPos_of_bytes {short long : String} {rest : ByteArray}
    (h : short.toByteArray ++ rest = long.toByteArray) : short.rawEndPos.IsValid long := by
  have hbegins : short.toList <+: long.toList := by
    apply List.isPrefix_of_utf8Encode_append_eq_utf8Encode rest
    rw [String.utf8Encode_toList, String.utf8Encode_toList, h]
  obtain ⟨more, hmore⟩ := hbegins
  refine String.Pos.Raw.isValid_iff_exists_append.mpr ⟨short, String.ofList more, ?_, rfl⟩
  rw [← String.toList_inj, String.toList_append, String.toList_ofList, hmore]

lemma Package.lookupOrder_of_module {p q : Package} (h : p.module = q.module) :
    p.lookupOrder q = .eq := by
  simp [Package.lookupOrder, compareLex, compareOn, h]

namespace PackageTree

variable {t : PackageTree} {declarations : List Declaration}

lemma Represents.pairwise_id (ht : t.Represents declarations) :
    t.packages.Pairwise fun p q => p.id < q.id := by
  rw [List.pairwise_iff_getElem]
  intro i j hi hj hij
  rw [ht.id_eq i _ (List.getElem?_eq_getElem hi), ht.id_eq j _ (List.getElem?_eq_getElem hj)]
  exact hij

lemma filter_byModule (t : PackageTree) (module : String) :
    t.byModule.filter (·.module = module) = t.packages.filter (·.module = module) := by
  rw [byModule, Sorted.filter_sort]
  refine List.mergeSort_of_pairwise (List.pairwise_of_forall_mem_list ?_)
  intro p hp q hq
  have hsame : p.module = q.module := by
    rw [of_decide_eq_true (List.mem_filter.mp hp).2, of_decide_eq_true (List.mem_filter.mp hq).2]
  simp [Package.lookupOrder_of_module hsame]

lemma id_le_of_resolveModule? (ht : t.Represents declarations) {module : String} {p q : Package}
    (h : t.resolveModule? module = some p) (hq : q ∈ t.packages) (hname : q.module = p.module) :
    p.id ≤ q.id := by
  obtain ⟨hcovers, front, back, hsplit, hfront⟩ := List.find?_eq_some_iff_append.mp h
  have hnone : front.filter (·.module = p.module) = [] := by
    rw [List.filter_eq_nil_iff]
    intro r hr hsame
    have hnot := hfront r hr
    rw [of_decide_eq_true hsame, hcovers] at hnot
    cases hnot
  have hfirst : t.packages.filter (·.module = p.module) =
      p :: back.filter (·.module = p.module) := by
    rw [← filter_byModule, hsplit, List.filter_append, hnone,
      List.filter_cons_of_pos (by simp), List.nil_append]
  have hmem : q ∈ t.packages.filter (·.module = p.module) := by simp [hq, hname]
  have hids := ht.pairwise_id.filter (·.module = p.module)
  rw [hfirst] at hmem hids
  rcases List.mem_cons.mp hmem with rfl | hlater
  · exact le_rfl
  · exact ((List.pairwise_cons.mp hids).1 q hlater).le

/-- A package owns a module by the longest match: its segments begin those of the module, no other
package that does so has more of them, and of those with the same name it was declared first. -/
structure Owns (t : PackageTree) (p : Package) (module : String) : Prop where
  mem : p ∈ t.packages
  begins : Module.segments p.module <+: Module.segments module
  longest : ∀ q ∈ t.packages, Module.segments q.module <+: Module.segments module →
    (Module.segments q.module).length ≤ (Module.segments p.module).length
  first : ∀ q ∈ t.packages, q.module = p.module → p.id ≤ q.id

lemma owns_of_resolveModule? (ht : t.Represents declarations) {module : String} {p : Package}
    (h : t.resolveModule? module = some p) : t.Owns p module := by
  have hselects := selects_resolveModule? t module
  rw [h] at hselects
  obtain ⟨hmem, hcovers, hheaviest⟩ := hselects
  have hbegins := Module.covers_iff.mp hcovers
  refine ⟨hmem, hbegins, ?_, fun q hq hname => id_le_of_resolveModule? ht h hq hname⟩
  intro q hq hq'
  exact Module.length_segments_le hq' hbegins (hheaviest q hq (Module.covers_iff.mpr hq'))

lemma resolveModule?_eq_none_iff {module : String} :
    t.resolveModule? module = none ↔
      ∀ p ∈ t.packages, ¬ Module.segments p.module <+: Module.segments module := by
  have hselects := selects_resolveModule? t module
  constructor
  · intro h
    rw [h] at hselects
    intro p hp hbegins
    exact hselects p hp (Module.covers_iff.mpr hbegins)
  · intro h
    cases hfound : t.resolveModule? module with
    | none => rfl
    | some p =>
      rw [hfound] at hselects
      exact absurd (Module.covers_iff.mp hselects.2.1) (h p hselects.1)

lemma Owns.unique (ht : t.Represents declarations) {module : String} {p q : Package}
    (hp : t.Owns p module) (hq : t.Owns q module) : p = q := by
  have hlength : (Module.segments p.module).length = (Module.segments q.module).length :=
    Nat.le_antisymm (hq.longest p hp.mem hp.begins) (hp.longest q hq.mem hq.begins)
  have hsegments : Module.segments p.module = Module.segments q.module :=
    (List.prefix_of_prefix_length_le hp.begins hq.begins hlength.le).eq_of_length hlength
  have hname := Module.segments_injective hsegments
  have hid : p.id = q.id :=
    Nat.le_antisymm (hp.first q hq.mem hname.symm) (hq.first p hp.mem hname)
  have hget := ht.get?_id hp.mem
  rw [hid, ht.get?_id hq.mem] at hget
  exact (Option.some.inj hget).symm

/-- Looking up a module is longest matching by segments. A name that goes on matches only behind a
dot, and whenever its bytes begin those of a module, they end between two characters of it. -/
theorem resolveModule?_longest {sourceRoots : List Path}
    (hbuild : build declarations sourceRoots = .ok t) (module : String) :
    (t.resolveModule? module = none ↔
      ∀ p ∈ t.packages, ¬ Module.segments p.module <+: Module.segments module) ∧
    (∀ p, t.resolveModule? module = some p ↔ t.Owns p module) ∧
    (∀ p ∈ t.packages, ∀ more, module = p.module ++ more →
      (Module.covers p.module module = true ↔ more = "" ∨ more.toList.head? = some '.')) ∧
    ∀ p ∈ t.packages, ∀ rest, p.module.toByteArray ++ rest = module.toByteArray →
      p.module.rawEndPos.IsValid module := by
  have ht := build_represents hbuild
  refine ⟨resolveModule?_eq_none_iff, ?_, ?_, fun p _ rest => isValid_rawEndPos_of_bytes⟩
  · intro p
    constructor
    · exact owns_of_resolveModule? ht
    · intro hp
      cases hfound : t.resolveModule? module with
      | none => exact absurd hp.begins (resolveModule?_eq_none_iff.mp hfound p hp.mem)
      | some q => rw [hp.unique ht (owns_of_resolveModule? ht hfound)]
  · rintro p - more rfl
    exact Module.covers_append_iff

end PackageTree

/-! ### One name under two source roots -/

namespace Sample

def sharedDeclarations : List Declaration :=
  [⟨⟨"lib/a"⟩, ["lib"], false, none⟩, ⟨⟨"src/a"⟩, ["src"], false, none⟩,
    ⟨⟨"src/a/é"⟩, ["inner"], false, none⟩]

def sharedTree : PackageTree where
  packages :=
    [⟨0, ⟨"lib/a"⟩, "a", ⟨[0]⟩, false, none⟩, ⟨1, ⟨"src/a"⟩, "a", ⟨[1]⟩, false, none⟩,
      ⟨2, ⟨"src/a/é"⟩, "a.é", ⟨[2]⟩, false, none⟩]
  tags := ⟨["lib", "src", "inner"], [("inner", 2), ("src", 1), ("lib", 0)]⟩

end Sample

/-- The inner package owns what lies below it, but not its namesake with one more letter, which
belongs to the outer name as it was declared first. -/
theorem PackageTree.resolveModule?_longest_sample :
    PackageTree.build Sample.sharedDeclarations [⟨"src"⟩, ⟨"lib"⟩] = .ok Sample.sharedTree ∧
    Sample.sharedTree.resolveModule? "a.é.x" = Sample.sharedTree.packages[2]? ∧
    Sample.sharedTree.resolveModule? "a.éx" = Sample.sharedTree.packages[0]? ∧
    Sample.sharedTree.resolveModule? "b" = none := by
  have hbuild : build Sample.sharedDeclarations [⟨"src"⟩, ⟨"lib"⟩] = .ok Sample.sharedTree := by
    decide +kernel
  obtain ⟨-, hinner, -, -⟩ := resolveModule?_longest hbuild "a.é.x"
  obtain ⟨-, houter, -, -⟩ := resolveModule?_longest hbuild "a.éx"
  obtain ⟨hnone, -, -, -⟩ := resolveModule?_longest hbuild "b"
  refine ⟨hbuild, ?_, ?_, ?_⟩
  · exact (hinner ⟨2, ⟨"src/a/é"⟩, "a.é", ⟨[2]⟩, false, none⟩).mpr
      ⟨by decide +kernel, by decide +kernel, by decide +kernel, by decide +kernel⟩
  · exact (houter ⟨0, ⟨"lib/a"⟩, "a", ⟨[0]⟩, false, none⟩).mpr
      ⟨by decide +kernel, by decide +kernel, by decide +kernel, by decide +kernel⟩
  · exact hnone.mpr (by decide +kernel)

end ImportFence
