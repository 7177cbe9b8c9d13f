import ImportFence.Sync
import ImportFence.Proofs.Tag

/-!
# Editing constraints

The declared pairs of trimmed tags after an addition are the former ones and the new ones, and after
a removal the former ones without the removed one, however the pairs are spread over entries and
whatever white space surrounds them. An addition that the first entry for its tag lists and a
removal of a pair that no entry declares change nothing, so a patch whose additions and removals do
not meet has its whole effect the first time.
-/

namespace ImportFence

/-- A pair without the white space around its tags. -/
def TagPair.trimmed (p : TagPair) : TagPair :=
  ⟨Text.trim p.source, Text.trim p.allowed⟩

lemma mem_declaredPairs {constraints : List Constraint} {p : TagPair} :
    p ∈ declaredPairs constraints ↔
      ∃ c ∈ constraints, ∃ d ∈ c.dependsOn, p = ⟨Text.trim c.tag, Text.trim d⟩ := by
  simp only [declaredPairs, List.mem_flatMap, List.mem_map, eq_comm]

lemma mem_declaredPairs_cons {c : Constraint} {cs : List Constraint} {p : TagPair} :
    p ∈ declaredPairs (c :: cs) ↔
      (p.source = Text.trim c.tag ∧ p.allowed ∈ c.dependsOn.map Text.trim) ∨
        p ∈ declaredPairs cs := by
  obtain ⟨source, allowed⟩ := p
  simp only [declaredPairs, List.flatMap_cons, List.mem_append, List.mem_map, TagPair.mk.injEq]
  constructor
  · rintro (⟨d, hd, hsource, hallowed⟩ | h)
    · exact Or.inl ⟨hsource.symm, d, hd, hallowed⟩
    · exact Or.inr h
  · rintro (⟨hsource, d, hd, hallowed⟩ | h)
    · exact Or.inl ⟨d, hd, hsource.symm, hallowed⟩
    · exact Or.inr h

namespace Constraint

lemma isFor_iff {tag : String} {c : Constraint} :
    c.isFor tag = true ↔ Text.trim c.tag = Text.trim tag := by
  simp [isFor]

lemma isFor_mk (tag : String) (c : Constraint) (deps : List String) :
    isFor tag ⟨c.tag, deps⟩ = c.isFor tag := rfl

lemma lists_iff {tag : String} {tags : List String} :
    lists tag tags = true ↔ Text.trim tag ∈ tags.map Text.trim := by
  simp [lists]

lemma mem_map_trim_extend {x : String} (further tags : List String) :
    x ∈ (extend tags further).map Text.trim ↔
      x ∈ tags.map Text.trim ∨ x ∈ further.map Text.trim := by
  induction further generalizing tags with
  | nil => simp [extend]
  | cons t further ih =>
    rw [extend, List.foldl_cons, ← extend, ih]
    split
    · rename_i hlists
      have ht := lists_iff.mp hlists
      rw [List.map_cons, List.mem_cons]
      constructor
      · rintro (h | h)
        · exact Or.inl h
        · exact Or.inr (Or.inr h)
      · rintro (h | rfl | h)
        · exact Or.inl h
        · exact Or.inl ht
        · exact Or.inr h
    · simp only [List.map_append, List.map_cons, List.map_nil, List.mem_append, List.mem_cons,
        List.not_mem_nil, or_false, Text.trim_trim, or_assoc]

lemma mem_declaredPairs_addAll {tag : String} {deps : List String} {cs : List Constraint}
    {p : TagPair} :
    p ∈ declaredPairs (addAll tag deps cs) ↔ p ∈ declaredPairs cs ∨
      (p.source = Text.trim tag ∧ p.allowed ∈ deps.map Text.trim) := by
  induction cs with
  | nil =>
    rw [addAll, mem_declaredPairs_cons, Text.trim_trim, mem_map_trim_extend]
    simp [declaredPairs]
  | cons c cs ih =>
    rw [addAll]
    split
    · rename_i hfor
      rw [mem_declaredPairs_cons, mem_declaredPairs_cons, mem_map_trim_extend,
        isFor_iff.mp hfor, and_or_left, or_right_comm]
    · rw [mem_declaredPairs_cons, mem_declaredPairs_cons, ih, or_assoc]

lemma mem_declaredPairs_remove {tag dep : String} {cs : List Constraint} {p : TagPair} :
    p ∈ declaredPairs (remove tag dep cs) ↔
      p ∈ declaredPairs cs ∧ ¬ (p.source = Text.trim tag ∧ p.allowed = Text.trim dep) := by
  induction cs with
  | nil => simp [remove, declaredPairs]
  | cons c cs ih =>
    rw [remove] at ih ⊢
    rw [List.map_cons, mem_declaredPairs_cons, mem_declaredPairs_cons, ih]
    split
    · rename_i hfor
      have hkept : p.allowed ∈ (c.dependsOn.filter (Text.trim · ≠ Text.trim dep)).map Text.trim ↔
          p.allowed ∈ c.dependsOn.map Text.trim ∧ p.allowed ≠ Text.trim dep := by
        simp only [List.mem_map, List.mem_filter, decide_eq_true_eq]
        constructor
        · rintro ⟨d, ⟨hd, hne⟩, hp⟩
          exact ⟨⟨d, hd, hp⟩, hp ▸ hne⟩
        · rintro ⟨⟨d, hd, hp⟩, hne⟩
          exact ⟨d, ⟨hd, hp ▸ hne⟩, hp⟩
      rw [hkept, isFor_iff.mp hfor]
      by_cases hsource : p.source = Text.trim tag
      · simp only [hsource, true_and, or_and_right, ne_eq]
      · simp [hsource]
    · rename_i hfor
      have hne : Text.trim c.tag ≠ Text.trim tag := fun h => hfor (isFor_iff.mpr h)
      constructor
      · rintro (⟨hsource, hallowed⟩ | ⟨h, hp⟩)
        · exact ⟨Or.inl ⟨hsource, hallowed⟩, fun hp => hne (hsource.symm.trans hp.1)⟩
        · exact ⟨Or.inr h, hp⟩
      · rintro ⟨h | h, hp⟩
        · exact Or.inl h
        · exact Or.inr ⟨h, hp⟩

lemma map_tag_addAll (tag : String) (deps : List String) (cs : List Constraint) :
    (addAll tag deps cs).map (·.tag) = cs.map (·.tag) ∨
      (addAll tag deps cs).map (·.tag) = cs.map (·.tag) ++ [Text.trim tag] := by
  induction cs with
  | nil => exact Or.inr rfl
  | cons c cs ih =>
    rw [addAll]
    split
    · exact Or.inl rfl
    · simpa using ih

@[simp] lemma map_tag_remove (tag dep : String) (cs : List Constraint) :
    (remove tag dep cs).map (·.tag) = cs.map (·.tag) := by
  rw [remove, List.map_map]
  apply List.map_congr_left
  intro c hc
  dsimp only [Function.comp]
  split <;> rfl

/-- The first constraint for a tag lists a dependency. -/
def ListsFirst (tag dep : String) (cs : List Constraint) : Prop :=
  ∃ c ∈ cs.find? (isFor tag), lists dep c.dependsOn = true

lemma listsFirst_cons {tag dep : String} {c : Constraint} {cs : List Constraint} :
    ListsFirst tag dep (c :: cs) ↔
      if c.isFor tag then lists dep c.dependsOn = true else ListsFirst tag dep cs := by
  unfold ListsFirst
  cases h : c.isFor tag <;> simp [h]

lemma addAll_eq_self {tag dep : String} {cs : List Constraint} (h : ListsFirst tag dep cs) :
    addAll tag [dep] cs = cs := by
  induction cs with
  | nil => simp [ListsFirst] at h
  | cons c cs ih =>
    rw [listsFirst_cons] at h
    rw [addAll]
    split at h
    · rename_i hfor
      rw [if_pos hfor]
      simp [extend, h]
    · rename_i hfor
      rw [if_neg hfor, ih h]

lemma remove_eq_self {tag dep : String} {cs : List Constraint}
    (h : ⟨Text.trim tag, Text.trim dep⟩ ∉ declaredPairs cs) : remove tag dep cs = cs := by
  induction cs with
  | nil => rfl
  | cons c cs ih =>
    rw [mem_declaredPairs_cons, not_or] at h
    rw [remove] at ih ⊢
    rw [List.map_cons, ih h.2]
    split
    · rename_i hfor
      have hkept : c.dependsOn.filter (Text.trim · ≠ Text.trim dep) = c.dependsOn := by
        rw [List.filter_eq_self]
        intro d hd
        rw [decide_eq_true_eq]
        intro heq
        exact h.1 ⟨(isFor_iff.mp hfor).symm, List.mem_map.mpr ⟨d, hd, heq⟩⟩
      rw [hkept]
    · rfl

lemma listsFirst_addAll_self (tag dep : String) (cs : List Constraint) :
    ListsFirst tag dep (addAll tag [dep] cs) := by
  have hextend : ∀ tags, lists dep (extend tags [dep]) = true := by
    intro tags
    rw [lists_iff, mem_map_trim_extend]
    simp
  induction cs with
  | nil =>
    have hfor : isFor tag ⟨Text.trim tag, extend [] [dep]⟩ = true := by simp [isFor]
    rw [addAll, listsFirst_cons, if_pos hfor]
    exact hextend []
  | cons c cs ih =>
    rw [addAll]
    split
    · rename_i hfor
      rw [listsFirst_cons, isFor_mk, if_pos hfor]
      exact hextend c.dependsOn
    · rename_i hfor
      rw [listsFirst_cons, if_neg hfor]
      exact ih

lemma ListsFirst.addAll {tag dep tag' dep' : String} {cs : List Constraint}
    (h : ListsFirst tag dep cs) : ListsFirst tag dep (addAll tag' [dep'] cs) := by
  induction cs with
  | nil => simp [ListsFirst] at h
  | cons c cs ih =>
    rw [Constraint.addAll]
    by_cases hfor : c.isFor tag
    · rw [listsFirst_cons, if_pos hfor] at h
      by_cases hfor' : c.isFor tag'
      · rw [if_pos hfor', listsFirst_cons, isFor_mk, if_pos hfor, lists_iff, mem_map_trim_extend]
        exact Or.inl (lists_iff.mp h)
      · rw [if_neg hfor', listsFirst_cons, if_pos hfor]
        exact h
    · rw [listsFirst_cons, if_neg hfor] at h
      by_cases hfor' : c.isFor tag'
      · rw [if_pos hfor', listsFirst_cons, isFor_mk, if_neg hfor]
        exact h
      · rw [if_neg hfor', listsFirst_cons, if_neg hfor]
        exact ih h

lemma ListsFirst.remove {tag dep tag' dep' : String} {cs : List Constraint}
    (hne : ¬ (Text.trim tag = Text.trim tag' ∧ Text.trim dep = Text.trim dep'))
    (h : ListsFirst tag dep cs) : ListsFirst tag dep (remove tag' dep' cs) := by
  induction cs with
  | nil => simp [ListsFirst] at h
  | cons c cs ih =>
    rw [Constraint.remove] at ih ⊢
    rw [List.map_cons]
    by_cases hfor : c.isFor tag
    · rw [listsFirst_cons, if_pos hfor] at h
      by_cases hfor' : c.isFor tag'
      · have htag : Text.trim tag = Text.trim tag' :=
          (isFor_iff.mp hfor).symm.trans (isFor_iff.mp hfor')
        obtain ⟨d, hd, heq⟩ := List.mem_map.mp (lists_iff.mp h)
        rw [if_pos hfor', listsFirst_cons, isFor_mk, if_pos hfor, lists_iff, List.mem_map]
        refine ⟨d, List.mem_filter.mpr ⟨hd, ?_⟩, heq⟩
        rw [decide_eq_true_eq, heq]
        exact fun hdep => hne ⟨htag, hdep⟩
      · rw [if_neg hfor', listsFirst_cons, if_pos hfor]
        exact h
    · rw [listsFirst_cons, if_neg hfor] at h
      by_cases hfor' : c.isFor tag'
      · rw [if_pos hfor', listsFirst_cons, isFor_mk, if_neg hfor]
        exact ih h
      · rw [if_neg hfor', listsFirst_cons, if_neg hfor]
        exact ih h

end Constraint

/-! ### Patches -/

namespace Constraint

def addPairs (ts : List TagPair) (cs : List Constraint) : List Constraint :=
  ts.foldl (fun cs t => addAll t.source [t.allowed] cs) cs

def removePairs (ts : List TagPair) (cs : List Constraint) : List Constraint :=
  ts.foldl (fun cs t => remove t.source t.allowed cs) cs

@[simp] lemma addPairs_nil (cs : List Constraint) : addPairs [] cs = cs := rfl

@[simp] lemma addPairs_cons (t : TagPair) (ts : List TagPair) (cs : List Constraint) :
    addPairs (t :: ts) cs = addPairs ts (addAll t.source [t.allowed] cs) := rfl

@[simp] lemma removePairs_nil (cs : List Constraint) : removePairs [] cs = cs := rfl

@[simp] lemma removePairs_cons (t : TagPair) (ts : List TagPair) (cs : List Constraint) :
    removePairs (t :: ts) cs = removePairs ts (remove t.source t.allowed cs) := rfl

lemma mem_declaredPairs_addPairs {q : TagPair} (ts : List TagPair) (cs : List Constraint) :
    q ∈ declaredPairs (addPairs ts cs) ↔ q ∈ declaredPairs cs ∨ ∃ t ∈ ts, q = t.trimmed := by
  induction ts generalizing cs with
  | nil => simp
  | cons t ts ih =>
    have hpair : (q.source = Text.trim t.source ∧ q.allowed ∈ [t.allowed].map Text.trim) ↔
        q = t.trimmed := by
      obtain ⟨source, allowed⟩ := q
      simp [TagPair.trimmed]
    rw [addPairs_cons, ih, mem_declaredPairs_addAll, hpair, or_assoc]
    simp only [List.mem_cons, exists_eq_or_imp]

lemma mem_declaredPairs_removePairs {q : TagPair} (ts : List TagPair) (cs : List Constraint) :
    q ∈ declaredPairs (removePairs ts cs) ↔ q ∈ declaredPairs cs ∧ ∀ t ∈ ts, q ≠ t.trimmed := by
  induction ts generalizing cs with
  | nil => simp
  | cons t ts ih =>
    have hpair : (q.source = Text.trim t.source ∧ q.allowed = Text.trim t.allowed) ↔
        q = t.trimmed := by
      obtain ⟨source, allowed⟩ := q
      simp [TagPair.trimmed]
    rw [removePairs_cons, ih, mem_declaredPairs_remove, hpair, and_assoc]
    simp only [List.mem_cons, forall_eq_or_imp, ne_eq]

/-- New entries come behind the others, each for the source of an added pair. -/
lemma map_tag_addPairs (ts : List TagPair) (cs : List Constraint) :
    ∃ new, (addPairs ts cs).map (·.tag) = cs.map (·.tag) ++ new ∧
      ∀ n ∈ new, ∃ t ∈ ts, n = Text.trim t.source := by
  induction ts generalizing cs with
  | nil => exact ⟨[], by simp, by simp⟩
  | cons t ts ih =>
    obtain ⟨new, hnew, hsources⟩ := ih (addAll t.source [t.allowed] cs)
    rw [addPairs_cons, hnew]
    have hlater : ∀ n ∈ new, ∃ u ∈ t :: ts, n = Text.trim u.source := by
      intro n hn
      obtain ⟨u, hu, rfl⟩ := hsources n hn
      exact ⟨u, List.mem_cons_of_mem t hu, rfl⟩
    rcases map_tag_addAll t.source [t.allowed] cs with hsame | hlast
    · exact ⟨new, by rw [hsame], hlater⟩
    · refine ⟨Text.trim t.source :: new, by rw [hlast, List.append_assoc]; rfl, ?_⟩
      exact List.forall_mem_cons.mpr ⟨⟨t, List.mem_cons_self, rfl⟩, hlater⟩

lemma map_tag_removePairs (ts : List TagPair) (cs : List Constraint) :
    (removePairs ts cs).map (·.tag) = cs.map (·.tag) := by
  induction ts generalizing cs with
  | nil => rfl
  | cons t ts ih => rw [removePairs_cons, ih, map_tag_remove]

lemma addPairs_eq_self {ts : List TagPair} {cs : List Constraint}
    (h : ∀ t ∈ ts, ListsFirst t.source t.allowed cs) : addPairs ts cs = cs := by
  induction ts with
  | nil => rfl
  | cons t ts ih =>
    rw [addPairs_cons, addAll_eq_self (h t List.mem_cons_self)]
    exact ih fun u hu => h u (List.mem_cons_of_mem t hu)

lemma removePairs_eq_self {ts : List TagPair} {cs : List Constraint}
    (h : ∀ t ∈ ts, t.trimmed ∉ declaredPairs cs) : removePairs ts cs = cs := by
  induction ts with
  | nil => rfl
  | cons t ts ih =>
    rw [removePairs_cons, remove_eq_self (h t List.mem_cons_self)]
    exact ih fun u hu => h u (List.mem_cons_of_mem t hu)

lemma ListsFirst.addPairs {tag dep : String} (ts : List TagPair) {cs : List Constraint}
    (h : ListsFirst tag dep cs) : ListsFirst tag dep (addPairs ts cs) := by
  induction ts generalizing cs with
  | nil => exact h
  | cons t ts ih => exact ih h.addAll

lemma listsFirst_addPairs_of_mem {ts : List TagPair} {t : TagPair} (h : t ∈ ts)
    (cs : List Constraint) : ListsFirst t.source t.allowed (addPairs ts cs) := by
  induction ts generalizing cs with
  | nil => cases h
  | cons u ts ih =>
    rw [addPairs_cons]
    rcases List.mem_cons.mp h with rfl | h
    · exact (listsFirst_addAll_self _ _ cs).addPairs ts
    · exact ih h _

lemma ListsFirst.removePairs {t : TagPair} (ts : List TagPair) {cs : List Constraint}
    (hne : ∀ u ∈ ts, t.trimmed ≠ u.trimmed) (h : ListsFirst t.source t.allowed cs) :
    ListsFirst t.source t.allowed (removePairs ts cs) := by
  induction ts generalizing cs with
  | nil => exact h
  | cons u ts ih =>
    refine ih (fun v hv => hne v (List.mem_cons_of_mem u hv)) (h.remove ?_)
    rintro ⟨hsource, hallowed⟩
    exact hne u List.mem_cons_self (by rw [TagPair.trimmed, TagPair.trimmed, hsource, hallowed])

end Constraint

namespace Patch

/-- What a patch makes of constraints. -/
def edit (p : Patch) (cs : List Constraint) : List Constraint :=
  Constraint.removePairs p.prunes (Constraint.addPairs p.additions cs)

lemma apply_eq (p : Patch) (c : Config) :
    p.apply c = { c with constraints := p.edit c.constraints } := by
  have hadd : ∀ (ts : List TagPair) (c : Config),
      ts.foldl (fun c t => c.addDependencies t.source [t.allowed]) c =
        { c with constraints := Constraint.addPairs ts c.constraints } := by
    intro ts
    induction ts with
    | nil => exact fun c => rfl
    | cons t ts ih => exact fun c => ih _
  have hremove : ∀ (ts : List TagPair) (c : Config),
      ts.foldl (fun c t => c.removeDependency t.source t.allowed) c =
        { c with constraints := Constraint.removePairs ts c.constraints } := by
    intro ts
    induction ts with
    | nil => exact fun c => rfl
    | cons t ts ih => exact fun c => ih _
  rw [apply, hadd, hremove, edit]

lemma map_tag_edit (p : Patch) (cs : List Constraint) :
    ∃ new, (p.edit cs).map (·.tag) = cs.map (·.tag) ++ new ∧
      ∀ n ∈ new, ∃ t ∈ p.additions, n = Text.trim t.source := by
  rw [edit, Constraint.map_tag_removePairs]
  exact Constraint.map_tag_addPairs p.additions cs

/-- The declared pairs after a patch. -/
theorem mem_declaredPairs_edit {p : Patch} {cs : List Constraint} {q : TagPair} :
    q ∈ declaredPairs (p.edit cs) ↔
      (q ∈ declaredPairs cs ∨ ∃ t ∈ p.additions, q = t.trimmed) ∧
        ∀ t ∈ p.prunes, q ≠ t.trimmed := by
  rw [edit, Constraint.mem_declaredPairs_removePairs, Constraint.mem_declaredPairs_addPairs]

/-- A patch that removes none of its own additions leaves nothing to do for a second run. -/
theorem edit_edit {p : Patch} (h : ∀ t ∈ p.additions, ∀ u ∈ p.prunes, t.trimmed ≠ u.trimmed)
    (cs : List Constraint) : p.edit (p.edit cs) = p.edit cs := by
  have hadds : Constraint.addPairs p.additions (p.edit cs) = p.edit cs := by
    apply Constraint.addPairs_eq_self
    -- additions go to the first entry for their tag; no removal takes them out of it again
    intro t ht
    have hlisted := Constraint.listsFirst_addPairs_of_mem ht cs
    exact hlisted.removePairs p.prunes (h t ht)
  have hremoves : Constraint.removePairs p.prunes (p.edit cs) = p.edit cs := by
    apply Constraint.removePairs_eq_self
    intro t ht hmem
    exact (mem_declaredPairs_edit.mp hmem).2 t ht rfl
  calc p.edit (p.edit cs)
      = Constraint.removePairs p.prunes (p.edit cs) := by
        rw [edit, hadds]
    _ = p.edit cs := hremoves

end Patch

end ImportFence
