import ImportFence.Proofs.Lookup

/-!
# Packages without their numbers

A view of a package leaves its number out and shows its tags by name. The views of a tree are read
off its declarations, one by one, so that trees of reordered declarations have the same views in
another order. Both look-ups commute with taking views.
-/

namespace ImportFence
open Std

/-- What a package is when numbers do not count. -/
structure PackageView where
  root : Path
  module : String
  /-- In ascending order. -/
  tags : List String
  strict : Bool
  publicNames : Option (List String)

def PackageTree.view (t : PackageTree) (p : Package) : PackageView where
  root := p.root
  module := p.module
  tags := Sorted.sort compare (p.tags.ids.map t.tags.name)
  strict := p.strict
  publicNames := p.publicNames

/-- The view of the package that a declaration leads to. -/
def Declaration.view (sourceRoots : List Path) (d : Declaration) : PackageView where
  root := d.root.normalize
  module := (Module.ofDirectory? sourceRoots d.root.normalize).getD ""
  tags := Sorted.ofList compare (d.tags.map Text.trim)
  strict := d.strict
  publicNames := d.publicNames.map firstOccurrences

lemma Selects.map {α β : Type} {xs : List α} {f : α → β} {fits : β → Prop} {weight : β → Nat}
    {r : Option α} (h : Selects xs (fun x => fits (f x)) (fun x => weight (f x)) r) :
    Selects (xs.map f) fits weight (r.map f) := by
  cases r with
  | none => simpa [Selects] using h
  | some x =>
    obtain ⟨hx, hfit, hmax⟩ := h
    refine ⟨List.mem_map_of_mem hx, hfit, ?_⟩
    simpa using hmax

/-! ### Tags by name -/

lemma TagTable.name_eq {table : TagTable} (hwf : table.WellFormed)
    (hsize : table.size ≤ TagId.last) {raw : String} {id : TagId} (hid : table.get? raw = some id) :
    table.name id = Text.trim raw :=
  ((TagTable.get?_eq_some_iff hwf hsize).mp hid).2

section Names

variable {table : TagTable} {p : Package} {d : Declaration}

lemma Package.Represents.nodup_names (h : p.Represents table d) (hwf : table.WellFormed) :
    (p.tags.ids.map table.name).Nodup := by
  have hnodup : p.tags.ids.Nodup := h.ascending.imp fun hlt => Nat.ne_of_lt hlt
  refine hnodup.map_on ?_
  intro a ha b hb heq
  obtain ⟨raw, -, hraw⟩ := (h.mem_tags a).mp ha
  obtain ⟨raw', -, hraw'⟩ := (h.mem_tags b).mp hb
  have hget := (TagTable.name_of_get? hwf hraw).2
  rw [heq, (TagTable.name_of_get? hwf hraw').2] at hget
  exact (Option.some.inj hget).symm

lemma Package.Represents.mem_names (h : p.Represents table d) (hwf : table.WellFormed)
    (hsize : table.size ≤ TagId.last) (n : String) :
    n ∈ p.tags.ids.map table.name ↔ n ∈ d.tags.map Text.trim := by
  rw [List.mem_map, List.mem_map]
  constructor
  · rintro ⟨id, hid, rfl⟩
    obtain ⟨raw, hraw, hget⟩ := (h.mem_tags id).mp hid
    exact ⟨raw, hraw, (TagTable.name_eq hwf hsize hget).symm⟩
  · rintro ⟨raw, hraw, rfl⟩
    obtain ⟨id, hid⟩ := h.numbered raw hraw
    exact ⟨id, (h.mem_tags id).mpr ⟨raw, hraw, hid⟩, TagTable.name_eq hwf hsize hid⟩

lemma Package.Represents.sort_names (h : p.Represents table d) (hwf : table.WellFormed)
    (hsize : table.size ≤ TagId.last) :
    Sorted.sort compare (p.tags.ids.map table.name) =
      Sorted.ofList compare (d.tags.map Text.trim) := by
  refine (Sorted.sort_ascending (h.nodup_names hwf)).eq_of_mem_iff (Sorted.ofList_ascending _) ?_
  intro n
  rw [(Sorted.sort_perm _ _).mem_iff, Sorted.mem_ofList, h.mem_names hwf hsize]

end Names

namespace PackageTree

variable {sourceRoots : List Path} {t t' : PackageTree} {declarations : List Declaration}
  {p q : Package}

/-- The views of a tree, read off its declarations. -/
theorem map_view (ht : t.Represents declarations) (hfollows : t.Follows sourceRoots declarations)
    (hsize : t.tags.size ≤ TagId.last) :
    t.packages.map t.view = declarations.map (Declaration.view sourceRoots) := by
  rw [← List.forall₂_eq_eq_eq, List.forall₂_map_left_iff, List.forall₂_map_right_iff,
    List.forall₂_iff_get]
  refine ⟨ht.length_eq, ?_⟩
  intro k hk hk'
  have hrepresents := ht.package k _ _ (List.getElem?_eq_getElem hk) (List.getElem?_eq_getElem hk')
  have hp : (t.packages.get ⟨k, hk⟩).Follows sourceRoots (declarations.get ⟨k, hk'⟩) :=
    hfollows.package.get hk hk'
  have hmodule := hp.module_eq
  rw [hp.root_eq] at hmodule
  rw [view, Declaration.view, hmodule, PackageView.mk.injEq]
  exact ⟨hp.root_eq, rfl, hrepresents.sort_names ht.wellFormed hsize, hp.strict_eq,
    hp.publicNames_eq⟩

/-- A tree whose packages can be told apart by number, by root and by module. -/
structure Distinguishes (t : PackageTree) : Prop where
  get?_id : ∀ p ∈ t.packages, t.get? p.id = some p
  eq_of_root : ∀ p ∈ t.packages, ∀ q ∈ t.packages,
    p.root.components = q.root.components → p = q
  eq_of_module : ∀ p ∈ t.packages, ∀ q ∈ t.packages, p.module = q.module → p = q

namespace Distinguishes

lemma eq_iff_view (h : t.Distinguishes) (hp : p ∈ t.packages) (hq : q ∈ t.packages) :
    p.id = q.id ↔ t.view p = t.view q := by
  constructor
  · intro heq
    have hget := h.get?_id p hp
    rw [heq, h.get?_id q hq] at hget
    rw [Option.some.inj hget]
  · intro heq
    have hroot : p.root = q.root := congrArg PackageView.root heq
    rw [h.eq_of_root p hp q hq (by rw [hroot])]

end Distinguishes

section Lookups

variable (ht : t.Distinguishes) (hviews : (t.packages.map t.view).Perm (t'.packages.map t'.view))

include hviews in
/-- What trees with the same views select by their views has the same view. -/
lemma map_eq_of_selects (fits : PackageView → Prop) (weight : PackageView → Nat)
    {r r' : Option Package}
    (h : Selects t.packages (fun p => fits (t.view p)) (fun p => weight (t.view p)) r)
    (h' : Selects t'.packages (fun p => fits (t'.view p)) (fun p => weight (t'.view p)) r')
    (hunique : ∀ p ∈ t.packages, ∀ q ∈ t.packages, fits (t.view p) → fits (t.view q) →
      weight (t.view p) = weight (t.view q) → p = q) : r.map t.view = r'.map t'.view := by
  refine h.map.unique h'.map (fun v => and_congr_left fun _ => hviews.mem_iff) ?_
  rintro v w ⟨hv, hfit⟩ ⟨hw, hfit'⟩ hle hge
  obtain ⟨p, hp, rfl⟩ := List.mem_map.mp hv
  obtain ⟨q, hq, rfl⟩ := List.mem_map.mp hw
  rw [hunique p hp q hq hfit hfit' (Nat.le_antisymm hge hle)]

include ht hviews

lemma map_resolve? (file : Path) :
    (t.resolve? file).map t.view = (t'.resolve? file).map t'.view := by
  apply map_eq_of_selects hviews (fun v => v.root.components <+: file.steps)
    fun v => v.root.components.length
  · exact selects_resolve? t file
  · exact selects_resolve? t' file
  · intro p hp q hq hfit hfit' hlength
    have hbegins : p.root.components <+: q.root.components :=
      List.prefix_of_prefix_length_le hfit hfit' hlength.le
    exact ht.eq_of_root p hp q hq (hbegins.eq_of_length hlength)

lemma map_resolveModule? (module : String) :
    (t.resolveModule? module).map t.view = (t'.resolveModule? module).map t'.view := by
  apply map_eq_of_selects hviews (fun v => Module.covers v.module module = true)
    fun v => Text.bytes v.module
  · exact selects_resolveModule? t module
  · exact selects_resolveModule? t' module
  · intro p hp q hq hfit hfit' hbytes
    exact ht.eq_of_module p hp q hq (Module.eq_of_covers hfit hfit' hbytes)

end Lookups

end PackageTree

end ImportFence
