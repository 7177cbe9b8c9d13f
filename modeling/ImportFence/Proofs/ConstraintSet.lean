import ImportFence.Check
import ImportFence.Proofs.PackageTree

/-!
# Constraints in terms of tag numbers

Constraints whose tags are all known give, for each tag, the union of the dependencies over all its
entries. A set of tags may then depend on another one exactly if some declared constraint leads from
the first to the second, and by names this is the rule as it is written in the configuration.
-/

namespace ImportFence
open Traversal

namespace ConstraintSet

lemma lookup_ok_iff {tags : TagTable} {place : TagPlace} {raw : String} {id : TagId} :
    lookup tags place raw = .ok id ↔ tags.get? raw = some id := by
  rw [lookup]
  cases tags.get? raw <;> simp

lemma lookupAll_ok {tags : TagTable} {i j : Nat} {raws : List String} {ids : List TagId}
    (h : lookupAll tags i j raws = .ok ids) :
    ∀ id, id ∈ ids ↔ ∃ raw ∈ raws, tags.get? raw = some id := by
  induction raws generalizing j ids with
  | nil =>
    cases h
    simp
  | cons raw raws ih =>
    rw [lookupAll] at h
    obtain ⟨first, hfirst, hrest⟩ := bind_eq_ok_iff.mp h
    obtain ⟨others, hothers, hids⟩ := bind_eq_ok_iff.mp hrest
    cases hids
    intro id
    have hraw := lookup_ok_iff.mp hfirst
    rw [List.mem_cons, ih hothers id]
    constructor
    · rintro (rfl | ⟨r, hr, hid⟩)
      · exact ⟨raw, List.mem_cons_self, hraw⟩
      · exact ⟨r, List.mem_cons_of_mem raw hr, hid⟩
    · rintro ⟨r, hr, hid⟩
      rcases List.mem_cons.mp hr with rfl | hr
      · exact Or.inl (Option.some.inj (hid.symm.trans hraw))
      · exact Or.inr ⟨r, hr, hid⟩

lemma lookup_filter_ne {allowed : List (TagId × TagSet)} {tag other : TagId} (h : other ≠ tag) :
    (allowed.filter (·.1 ≠ tag)).lookup other = allowed.lookup other := by
  induction allowed with
  | nil => rfl
  | cons entry allowed ih =>
    obtain ⟨key, deps⟩ := entry
    by_cases hkey : key = tag
    · subst hkey
      rw [List.filter_cons_of_neg (by simp), ih, List.lookup_cons, beq_eq_false_iff_ne.mpr h]
    · rw [List.filter_cons_of_pos (by simpa using hkey), List.lookup_cons, List.lookup_cons, ih]

lemma of_allow (s : ConstraintSet) (tag : TagId) (deps : List TagId) (other : TagId) :
    (s.allow tag deps).of other =
      if other = tag then deps.foldl TagSet.insert (s.of tag) else s.of other := by
  by_cases h : other = tag
  · subst h
    simp [allow, of]
  · rw [if_neg h, of, of, allow, List.lookup_cons, beq_eq_false_iff_ne.mpr h, lookup_filter_ne h]

lemma mem_of_addAll {tags : TagTable} {i : Nat} {constraints : List Constraint}
    {s s' : ConstraintSet} (h : addAll tags i constraints s = .ok s') (a b : TagId) :
    b ∈ (s'.of a).ids ↔ b ∈ (s.of a).ids ∨ ∃ c ∈ constraints, ∃ d ∈ c.dependsOn,
      tags.get? c.tag = some a ∧ tags.get? d = some b := by
  induction constraints generalizing i s with
  | nil =>
    cases h
    simp
  | cons c cs ih =>
    rw [addAll] at h
    obtain ⟨tag, htag, hrest⟩ := bind_eq_ok_iff.mp h
    obtain ⟨deps, hdeps, hrest⟩ := bind_eq_ok_iff.mp hrest
    have hc := lookup_ok_iff.mp htag
    have hentry : b ∈ ((s.allow tag deps).of a).ids ↔
        b ∈ (s.of a).ids ∨ ∃ d ∈ c.dependsOn, tags.get? c.tag = some a ∧ tags.get? d = some b := by
      rw [of_allow]
      split
      · rename_i heq
        subst heq
        rw [TagSet.mem_foldl_insert, lookupAll_ok hdeps b]
        simp [hc]
      · rename_i hne
        have hneq : tags.get? c.tag ≠ some a := by
          rw [hc]
          exact fun heq => hne (Option.some.inj heq).symm
        simp [hneq]
    rw [ih hrest, hentry, or_assoc]
    simp only [List.mem_cons, exists_eq_or_imp]

/-- What a tag may depend on, in terms of the declared constraints. -/
theorem mem_of_ofConstraints {tags : TagTable} {constraints : List Constraint} {s : ConstraintSet}
    (h : ofConstraints constraints tags = .ok s) (a b : TagId) :
    b ∈ (s.of a).ids ↔ ∃ c ∈ constraints, ∃ d ∈ c.dependsOn,
      tags.get? c.tag = some a ∧ tags.get? d = some b := by
  rw [mem_of_addAll h a b]
  simp [empty, of, TagSet.empty]

lemma foldl_union_ascending (s : ConstraintSet) (ids : List TagId) {out : TagSet}
    (h : out.Ascending) : (ids.foldl (fun out tag => out.union (s.of tag)) out).Ascending := by
  induction ids generalizing out with
  | nil => exact h
  | cons id ids ih => exact ih (TagSet.union_ascending h _)

lemma mem_foldl_union (s : ConstraintSet) (ids : List TagId) (out : TagSet) (b : TagId) :
    b ∈ (ids.foldl (fun out tag => out.union (s.of tag)) out).ids ↔
      b ∈ out.ids ∨ ∃ a ∈ ids, b ∈ (s.of a).ids := by
  induction ids generalizing out with
  | nil => simp
  | cons id ids ih =>
    rw [List.foldl_cons, ih, TagSet.mem_union, or_assoc]
    simp only [List.mem_cons, exists_eq_or_imp]

lemma mem_allowedFor {s : ConstraintSet} {tags : TagSet} {b : TagId} :
    b ∈ (s.allowedFor tags).ids ↔ ∃ a ∈ tags.ids, b ∈ (s.of a).ids := by
  rw [allowedFor, mem_foldl_union]
  simp [TagSet.empty]

theorem permits_iff {s : ConstraintSet} {source target : TagSet} (ht : target.Ascending) :
    s.permits source target = true ↔ ∃ a ∈ source.ids, ∃ b ∈ target.ids, b ∈ (s.of a).ids := by
  have hs : (s.allowedFor source).Ascending :=
    foldl_union_ascending s source.ids TagSet.empty_ascending
  rw [permits, TagSet.intersects_iff hs ht]
  constructor
  · rintro ⟨b, hb, hbt⟩
    obtain ⟨a, ha, hab⟩ := mem_allowedFor.mp hb
    exact ⟨a, ha, b, hbt, hab⟩
  · rintro ⟨a, ha, b, hbt, hab⟩
    exact ⟨b, mem_allowedFor.mpr ⟨a, ha, hab⟩, hbt⟩

/-! ### Unknown tags -/

section Unknown

variable {tags : TagTable} (ht : tags.WellFormed) {e : ConfigError}

include ht

lemma lookup_eq_error_iff {place : TagPlace} {raw : String} :
    lookup tags place raw = .error e ↔
      Text.trim raw ∉ tags.names ∧ e = .unknownTag raw place := by
  rw [lookup, ← TagTable.get?_eq_none_iff ht]
  cases tags.get? raw <;> simp [eq_comm]

lemma known_of_lookup_ok {place : TagPlace} {raw : String} {id : TagId}
    (h : lookup tags place raw = .ok id) : Text.trim raw ∈ tags.names := by
  by_contra hunknown
  rw [(lookup_eq_error_iff ht).mpr ⟨hunknown, rfl⟩] at h
  cases h

lemma known_of_lookupAll_ok {i j : Nat} {raws : List String} {ids : List TagId}
    (h : lookupAll tags i j raws = .ok ids) : ∀ raw ∈ raws, Text.trim raw ∈ tags.names := by
  induction raws generalizing j ids with
  | nil => simp
  | cons raw raws ih =>
    rw [lookupAll] at h
    obtain ⟨first, hfirst, hrest⟩ := bind_eq_ok_iff.mp h
    obtain ⟨others, hothers, -⟩ := bind_eq_ok_iff.mp hrest
    exact List.forall_mem_cons.mpr ⟨known_of_lookup_ok ht hfirst, ih hothers⟩

lemma lookupAll_eq_error {i j : Nat} {raws : List String}
    (h : lookupAll tags i j raws = .error e) :
    ∃ l raw, raws[l]? = some raw ∧ Text.trim raw ∉ tags.names ∧
      e = .unknownTag raw (.dependency i (j + l)) := by
  induction raws generalizing j with
  | nil => cases h
  | cons raw raws ih =>
    rw [lookupAll] at h
    rcases bind_eq_error_iff.mp h with herror | ⟨id, -, hrest⟩
    · obtain ⟨hunknown, he⟩ := (lookup_eq_error_iff ht).mp herror
      exact ⟨0, raw, rfl, hunknown, he⟩
    · rcases bind_eq_error_iff.mp hrest with herror | ⟨ids, -, hdone⟩
      · obtain ⟨l, unknown, hl, hunknown, he⟩ := ih herror
        refine ⟨l + 1, unknown, hl, hunknown, ?_⟩
        rw [he, show j + 1 + l = j + (l + 1) by omega]
      · cases hdone

lemma known_of_addAll_ok {i : Nat} {constraints : List Constraint} {s s' : ConstraintSet}
    (h : addAll tags i constraints s = .ok s') :
    ∀ c ∈ constraints, Text.trim c.tag ∈ tags.names ∧
      ∀ d ∈ c.dependsOn, Text.trim d ∈ tags.names := by
  induction constraints generalizing i s with
  | nil => simp
  | cons c cs ih =>
    rw [addAll] at h
    obtain ⟨tag, htag, hdeps⟩ := bind_eq_ok_iff.mp h
    obtain ⟨deps, hdeps, hrest⟩ := bind_eq_ok_iff.mp hdeps
    exact List.forall_mem_cons.mpr
      ⟨⟨known_of_lookup_ok ht htag, known_of_lookupAll_ok ht hdeps⟩, ih hrest⟩

/-- The indices of constraints count from `i`. -/
lemma addAll_eq_error {i : Nat} {constraints : List Constraint} {s : ConstraintSet}
    (h : addAll tags i constraints s = .error e) :
    ∃ k c, constraints[k]? = some c ∧
      (Text.trim c.tag ∉ tags.names ∧ e = .unknownTag c.tag (.constraintTag (i + k)) ∨
        ∃ l d, c.dependsOn[l]? = some d ∧ Text.trim d ∉ tags.names ∧
          e = .unknownTag d (.dependency (i + k) l)) := by
  induction constraints generalizing i s with
  | nil => cases h
  | cons c cs ih =>
    rw [addAll] at h
    rcases bind_eq_error_iff.mp h with herror | ⟨tag, -, hdeps⟩
    · exact ⟨0, c, rfl, Or.inl ((lookup_eq_error_iff ht).mp herror)⟩
    · rcases bind_eq_error_iff.mp hdeps with herror | ⟨deps, -, hrest⟩
      · obtain ⟨l, d, hl, hunknown, he⟩ := lookupAll_eq_error ht herror
        rw [Nat.zero_add] at he
        exact ⟨0, c, rfl, Or.inr ⟨l, d, hl, hunknown, he⟩⟩
      · obtain ⟨k, c', hk, hcases⟩ := ih hrest
        refine ⟨k + 1, c', hk, ?_⟩
        rwa [show i + 1 + k = i + (k + 1) by omega] at hcases

/-- Constraints are rejected for a tag that the table lacks, the tag of a constraint or one of its
dependencies, which the error names with its place. -/
theorem ofConstraints_eq_error {constraints : List Constraint}
    (h : ofConstraints constraints tags = .error e) :
    ∃ i c, constraints[i]? = some c ∧
      (Text.trim c.tag ∉ tags.names ∧ e = .unknownTag c.tag (.constraintTag i) ∨
        ∃ j d, c.dependsOn[j]? = some d ∧ Text.trim d ∉ tags.names ∧
          e = .unknownTag d (.dependency i j)) := by
  simpa only [Nat.zero_add] using addAll_eq_error ht h

/-- Constraints are accepted exactly if the table has all their tags. -/
theorem exists_ofConstraints_iff {constraints : List Constraint} :
    (∃ set, ofConstraints constraints tags = .ok set) ↔
      ∀ c ∈ constraints, Text.trim c.tag ∈ tags.names ∧
        ∀ d ∈ c.dependsOn, Text.trim d ∈ tags.names := by
  constructor
  · rintro ⟨set, h⟩
    exact known_of_addAll_ok ht h
  · intro hknown
    cases h : ofConstraints constraints tags with
    | ok set => exact ⟨set, rfl⟩
    | error e =>
      obtain ⟨i, c, hi, hcases⟩ := ofConstraints_eq_error ht h
      obtain ⟨htag, hdeps⟩ := hknown c (List.mem_of_getElem? hi)
      rcases hcases with ⟨hunknown, -⟩ | ⟨j, d, hj, hunknown, -⟩
      · exact absurd htag hunknown
      · exact absurd (hdeps d (List.mem_of_getElem? hj)) hunknown

end Unknown

/-- Two tables that know the same tags. -/
def SameTags (tags tags' : TagTable) : Prop :=
  ∀ raw, tags.get? raw = none ↔ tags'.get? raw = none

lemma lookup_congr {tags tags' : TagTable} (h : SameTags tags tags') (place : TagPlace)
    (raw : String) :
    (∃ id id', lookup tags place raw = .ok id ∧ lookup tags' place raw = .ok id') ∨
      lookup tags place raw = .error (.unknownTag raw place) ∧
        lookup tags' place raw = .error (.unknownTag raw place) := by
  have hraw := h raw
  rw [lookup, lookup]
  cases hget : tags.get? raw with
  | none =>
    rw [hraw.mp hget]
    exact Or.inr ⟨rfl, rfl⟩
  | some id =>
    cases hget' : tags'.get? raw with
    | none => simp [hget, hget'] at hraw
    | some id' => exact Or.inl ⟨id, id', rfl, rfl⟩

lemma lookupAll_congr {tags tags' : TagTable} (h : SameTags tags tags') (i j : Nat)
    (raws : List String) :
    (∃ ids ids', lookupAll tags i j raws = .ok ids ∧ lookupAll tags' i j raws = .ok ids') ∨
      ∃ raw place, lookupAll tags i j raws = .error (.unknownTag raw place) ∧
        lookupAll tags' i j raws = .error (.unknownTag raw place) := by
  induction raws generalizing j with
  | nil => exact Or.inl ⟨[], [], rfl, rfl⟩
  | cons raw raws ih =>
    rw [lookupAll, lookupAll]
    rcases lookup_congr h (.dependency i j) raw with ⟨id, id', hid, hid'⟩ | ⟨herr, herr'⟩
    · rw [hid, hid']
      rcases ih (j + 1) with ⟨ids, ids', hids, hids'⟩ | ⟨unknown, place, herr, herr'⟩
      · rw [hids, hids']
        exact Or.inl ⟨_, _, rfl, rfl⟩
      · rw [herr, herr']
        exact Or.inr ⟨unknown, place, rfl, rfl⟩
    · rw [herr, herr']
      exact Or.inr ⟨_, _, rfl, rfl⟩

lemma addAll_congr {tags tags' : TagTable} (h : SameTags tags tags') (i : Nat)
    (constraints : List Constraint) (s s' : ConstraintSet) :
    (∃ out out', addAll tags i constraints s = .ok out ∧
        addAll tags' i constraints s' = .ok out') ∨
      ∃ raw place, addAll tags i constraints s = .error (.unknownTag raw place) ∧
        addAll tags' i constraints s' = .error (.unknownTag raw place) := by
  induction constraints generalizing i s s' with
  | nil => exact Or.inl ⟨s, s', rfl, rfl⟩
  | cons c cs ih =>
    rw [addAll, addAll]
    rcases lookup_congr h (.constraintTag i) c.tag with ⟨id, id', hid, hid'⟩ | ⟨herr, herr'⟩
    · rw [hid, hid']
      rcases lookupAll_congr h i 0 c.dependsOn with
        ⟨ids, ids', hids, hids'⟩ | ⟨unknown, place, herr, herr'⟩
      · rw [hids, hids']
        exact ih (i + 1) _ _
      · rw [herr, herr']
        exact Or.inr ⟨unknown, place, rfl, rfl⟩
    · rw [herr, herr']
      exact Or.inr ⟨_, _, rfl, rfl⟩

/-- Under tables that know the same tags, constraints are accepted or rejected alike, and rejected
because of the same unknown tag. -/
theorem ofConstraints_congr {tags tags' : TagTable} (h : SameTags tags tags')
    (constraints : List Constraint) :
    (∃ set set', ofConstraints constraints tags = .ok set ∧
        ofConstraints constraints tags' = .ok set') ∨
      ∃ raw place, ofConstraints constraints tags = .error (.unknownTag raw place) ∧
        ofConstraints constraints tags' = .error (.unknownTag raw place) :=
  addAll_congr h 0 constraints empty empty

end ConstraintSet

end ImportFence
