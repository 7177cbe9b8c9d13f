import ImportFence.Proofs.ConfigEdit
import ImportFence.Proofs.FirstFault

/-!
# What a patch does to each entry

The additions of a patch can be handed out along the entries: the first entry for a tag takes all
additions for it, and those that no entry takes make new entries behind the others, one for each
source. Removals treat every entry by itself. So each entry keeps its place, its tag and those of
its dependencies that are not removed, in their order and spelling.
-/

namespace ImportFence

lemma nodup_eraseDups (names : List String) : names.eraseDups.Nodup := by
  cases names with
  | nil => simp
  | cons name names =>
    rw [List.eraseDups_cons, List.nodup_cons]
    exact ⟨by simp, nodup_eraseDups _⟩
termination_by names.length
decreasing_by exact Nat.lt_succ_of_le (List.length_filter_le _ _)

namespace Constraint

def dependenciesFrom (tag : String) (ts : List TagPair) : List String :=
  (ts.filter fun t => Text.trim t.source = Text.trim tag).map (·.allowed)

def others (tag : String) (ts : List TagPair) : List TagPair :=
  ts.filter fun t => Text.trim t.source ≠ Text.trim tag

lemma mem_dependenciesFrom_trim {tag n : String} {ts : List TagPair} :
    n ∈ (dependenciesFrom tag ts).map Text.trim ↔
      ⟨Text.trim tag, n⟩ ∈ ts.map TagPair.trimmed := by
  simp only [dependenciesFrom, List.map_map, List.mem_map, List.mem_filter, decide_eq_true_eq,
    Function.comp_apply, TagPair.trimmed, TagPair.mk.injEq, and_assoc]

lemma dependenciesFrom_others {tag tag' : String} (h : Text.trim tag ≠ Text.trim tag')
    (ts : List TagPair) : dependenciesFrom tag (others tag' ts) = dependenciesFrom tag ts := by
  rw [dependenciesFrom, others, List.filter_filter, dependenciesFrom]
  refine congrArg _ (List.filter_congr fun t _ => ?_)
  by_cases ht : Text.trim t.source = Text.trim tag <;> simp [ht, h]

lemma extend_eq (tags further : List String) :
    extend tags further =
      tags ++ ((further.map Text.trim).filter (· ∉ tags.map Text.trim)).eraseDups := by
  induction further generalizing tags with
  | nil => simp [extend]
  | cons t further ih =>
    rw [extend, List.foldl_cons, ← extend, ih, List.map_cons]
    by_cases hlists : lists t tags = true
    · rw [if_pos hlists, List.filter_cons_of_neg (by simpa using lists_iff.mp hlists)]
    · have hnew : Text.trim t ∉ tags.map Text.trim := fun h => hlists (lists_iff.mpr h)
      have hlater : (further.map Text.trim).filter (· ∉ (tags ++ [Text.trim t]).map Text.trim) =
          ((further.map Text.trim).filter (· ∉ tags.map Text.trim)).filter
            (fun n => !n == Text.trim t) := by
        rw [List.filter_filter]
        refine List.filter_congr fun n _ => ?_
        rw [Bool.eq_iff_iff]
        simp [and_comm]
      rw [if_neg hlists, List.filter_cons_of_pos (by simpa using hnew), List.eraseDups_cons,
        hlater, List.append_assoc, List.singleton_append]

lemma extend_append (tags further more : List String) :
    extend (extend tags further) more = extend tags (further ++ more) := by
  rw [extend, extend, extend, List.foldl_append]

/-! ### Additions -/

lemma addPairs_cons_entry (ts : List TagPair) (c : Constraint) (cs : List Constraint) :
    addPairs ts (c :: cs) =
      ⟨c.tag, extend c.dependsOn (dependenciesFrom c.tag ts)⟩ :: addPairs (others c.tag ts) cs := by
  induction ts generalizing c cs with
  | nil => rfl
  | cons t ts ih =>
    rw [addPairs_cons, addAll]
    by_cases hfor : Text.trim c.tag = Text.trim t.source
    · have hfrom : dependenciesFrom c.tag (t :: ts) = [t.allowed] ++ dependenciesFrom c.tag ts := by
        simp [dependenciesFrom, hfor]
      have hothers : others c.tag (t :: ts) = others c.tag ts := by simp [others, hfor]
      rw [if_pos (isFor_iff.mpr hfor), ih, extend_append, hfrom, hothers]
    · have hfrom : dependenciesFrom c.tag (t :: ts) = dependenciesFrom c.tag ts := by
        simp [dependenciesFrom, Ne.symm hfor]
      have hothers : others c.tag (t :: ts) = t :: others c.tag ts := by
        simp [others, Ne.symm hfor]
      rw [if_neg (fun h => hfor (isFor_iff.mp h)), ih, hfrom, hothers, addPairs_cons]

/-- An entry takes the additions for its tag if it is the first one for it. -/
lemma getElem?_addPairs {cs : List Constraint} {i : Nat} {e : Constraint} (h : cs[i]? = some e)
    (ts : List TagPair) :
    (addPairs ts cs)[i]? = some ⟨e.tag, extend e.dependsOn
      (if (cs.take i).any (isFor e.tag) then [] else dependenciesFrom e.tag ts)⟩ := by
  induction cs generalizing i ts with
  | nil => cases h
  | cons c cs ih =>
    rw [addPairs_cons_entry]
    cases i with
    | zero =>
      cases h
      rfl
    | succ i =>
      rw [List.getElem?_cons_succ] at h ⊢
      rw [ih h, List.take_succ_cons, List.any_cons]
      by_cases hfor : c.isFor e.tag = true
      · -- the entry in front has taken all of them
        have hnone : dependenciesFrom e.tag (others c.tag ts) = [] := by
          simp [dependenciesFrom, others, isFor_iff.mp hfor]
        simp [hfor, hnone]
      · have hne : Text.trim e.tag ≠ Text.trim c.tag := fun heq => hfor (isFor_iff.mpr heq.symm)
        simp [hfor, dependenciesFrom_others hne]

/-- Behind the entries come those that the additions make which no entry takes. -/
lemma drop_addPairs (ts : List TagPair) (cs : List Constraint) :
    (addPairs ts cs).drop cs.length =
      addPairs (ts.filter fun t => Text.trim t.source ∉ cs.map fun c => Text.trim c.tag) [] := by
  induction cs generalizing ts with
  | nil => simp
  | cons c cs ih =>
    rw [addPairs_cons_entry, List.length_cons, List.drop_succ_cons, ih, others, List.filter_filter]
    refine congrArg (addPairs · []) (List.filter_congr fun t _ => ?_)
    rw [Bool.eq_iff_iff]
    simp [and_comm]

lemma addPairs_nil_entries (ts : List TagPair) :
    addPairs ts [] = ((ts.map fun t => Text.trim t.source).eraseDups).map fun tag =>
      ⟨tag, extend [] (dependenciesFrom tag ts)⟩ := by
  cases ts with
  | nil => rfl
  | cons t ts =>
    have hfirst : dependenciesFrom (Text.trim t.source) (t :: ts) =
        [t.allowed] ++ dependenciesFrom (Text.trim t.source) ts := by
      simp [dependenciesFrom]
    have hsources : ((others (Text.trim t.source) ts).map fun u => Text.trim u.source) =
        (ts.map fun u => Text.trim u.source).filter fun tag => !tag == Text.trim t.source := by
      rw [others, List.filter_map]
      refine congrArg _ (List.filter_congr fun u _ => ?_)
      rw [Bool.eq_iff_iff]
      simp
    rw [addPairs_cons, addAll, addPairs_cons_entry, extend_append, ← hfirst,
      addPairs_nil_entries (others (Text.trim t.source) ts), hsources, List.map_cons,
      List.eraseDups_cons, List.map_cons]
    refine congrArg _ (List.map_congr_left fun tag htag => ?_)
    obtain ⟨htag, hne⟩ := List.mem_filter.mp (List.mem_eraseDups.mp htag)
    obtain ⟨u, -, rfl⟩ := List.mem_map.mp htag
    have hother : Text.trim u.source ≠ Text.trim t.source := by simpa using hne
    have hskip : dependenciesFrom (Text.trim u.source) (t :: ts) =
        dependenciesFrom (Text.trim u.source) ts := by
      simp [dependenciesFrom, hother.symm]
    rw [hskip, dependenciesFrom_others (by simpa using hother)]
termination_by ts.length
decreasing_by exact Nat.lt_succ_of_le (List.length_filter_le _ _)

/-! ### Removals -/

lemma removePairs_eq (ts : List TagPair) (cs : List Constraint) :
    removePairs ts cs = cs.map fun c => ⟨c.tag, c.dependsOn.filter fun d =>
      ⟨Text.trim c.tag, Text.trim d⟩ ∉ ts.map TagPair.trimmed⟩ := by
  induction ts generalizing cs with
  | nil => simp
  | cons t ts ih =>
    rw [removePairs_cons, ih, remove, List.map_map]
    refine List.map_congr_left fun c _ => ?_
    by_cases hfor : c.isFor t.source = true
    · simp only [Function.comp_apply, if_pos hfor, List.filter_filter, mk.injEq, true_and]
      refine List.filter_congr fun d _ => ?_
      rw [Bool.eq_iff_iff]
      simp [TagPair.trimmed, isFor_iff.mp hfor, and_comm]
    · simp only [Function.comp_apply, if_neg hfor, mk.injEq, true_and]
      refine List.filter_congr fun d _ => ?_
      have hne : Text.trim c.tag ≠ Text.trim t.source := fun heq => hfor (isFor_iff.mpr heq)
      simp [TagPair.trimmed, hne]

end Constraint

/-! ### Patches -/

lemma Config.dependenciesOf_eq (c : Config) (tag : String) :
    c.dependenciesOf tag =
      (((c.constraints.filter (Constraint.isFor tag)).flatMap (·.dependsOn)).map
        Text.trim).eraseDups := by
  rw [← firstOccurrences_eq_eraseDups, firstOccurrences, List.foldl_map]
  rfl

lemma Config.mem_dependenciesOf {c : Config} {tag dep : String} :
    dep ∈ c.dependenciesOf tag ↔ ⟨Text.trim tag, dep⟩ ∈ declaredPairs c.constraints := by
  rw [dependenciesOf_eq, List.mem_eraseDups, mem_declaredPairs]
  simp only [List.mem_map, List.mem_flatMap, List.mem_filter, Constraint.isFor_iff,
    TagPair.mk.injEq]
  constructor
  · rintro ⟨d, ⟨e, ⟨he, htag⟩, hd⟩, rfl⟩
    exact ⟨e, he, d, hd, htag.symm, rfl⟩
  · rintro ⟨e, he, d, hd, htag, rfl⟩
    exact ⟨d, ⟨e, ⟨he, htag.symm⟩, hd⟩, rfl⟩

namespace Patch

variable {p : Patch} {cs : List Constraint}

/-- Whether a patch removes a dependency of a tag. -/
def removes (p : Patch) (tag dep : String) : Bool :=
  ⟨Text.trim tag, Text.trim dep⟩ ∈ p.prunes.map TagPair.trimmed

/-- What a patch makes of an entry behind the given ones. The entry stays with its tag, the
dependencies that are not removed stay in order and as they are spelled, and behind them come, each
once, the added names that are neither listed nor removed; only the first entry for its tag gains
any. -/
structure Revises (p : Patch) (front : List Constraint) (e e' : Constraint) : Prop where
  tag_eq : e'.tag = e.tag
  dependsOn_eq : ∃ gained, e'.dependsOn = e.dependsOn.filter (!p.removes e.tag ·) ++ gained ∧
    gained.Nodup ∧
    ∀ n, n ∈ gained ↔
      (∀ c ∈ front, Text.trim c.tag ≠ Text.trim e.tag) ∧
      ⟨Text.trim e.tag, n⟩ ∈ p.additions.map TagPair.trimmed ∧
      n ∉ e.dependsOn.map Text.trim ∧
      ⟨Text.trim e.tag, n⟩ ∉ p.prunes.map TagPair.trimmed

/-- What a patch writes into an entry that it makes: the added names that are not removed, each
once. -/
structure Creates (p : Patch) (e : Constraint) : Prop where
  nodup : e.dependsOn.Nodup
  mem_iff : ∀ n, n ∈ e.dependsOn ↔
    ⟨e.tag, n⟩ ∈ p.additions.map TagPair.trimmed ∧ ⟨e.tag, n⟩ ∉ p.prunes.map TagPair.trimmed

lemma edit_eq_map (p : Patch) (cs : List Constraint) :
    p.edit cs = (Constraint.addPairs p.additions cs).map fun c =>
      ⟨c.tag, c.dependsOn.filter (!p.removes c.tag ·)⟩ := by
  rw [edit, Constraint.removePairs_eq]
  simp only [removes, decide_not]

lemma mem_filter_removes {tag n : String} {names : List String}
    (hnames : ∀ m ∈ names, Text.trim m = m) :
    n ∈ names.eraseDups.filter (!p.removes tag ·) ↔
      n ∈ names ∧ ⟨Text.trim tag, n⟩ ∉ p.prunes.map TagPair.trimmed := by
  rw [List.mem_filter, List.mem_eraseDups, removes]
  refine and_congr_right fun hn => ?_
  rw [hnames n hn]
  simp

lemma getElem?_edit {i : Nat} {e : Constraint} (h : cs[i]? = some e) :
    ∃ e', (p.edit cs)[i]? = some e' ∧ p.Revises (cs.take i) e e' := by
  rw [edit_eq_map, List.getElem?_map, Constraint.getElem?_addPairs h, Option.map_some]
  refine ⟨_, rfl, rfl, ?_⟩
  rw [Constraint.extend_eq, List.filter_append]
  refine ⟨_, rfl, (nodup_eraseDups _).filter _, fun n => ?_⟩
  have hfront : (cs.take i).any (Constraint.isFor e.tag) = true ↔
      ¬ ∀ c ∈ cs.take i, Text.trim c.tag ≠ Text.trim e.tag := by
    simp [Constraint.isFor]
  rw [mem_filter_removes, List.mem_filter, decide_eq_true_eq]
  · split
    · rename_i hany
      simp [hfront.mp hany]
    · rename_i hany
      rw [Constraint.mem_dependenciesFrom_trim, and_assoc]
      exact (and_iff_right (not_not.mp (mt hfront.mpr hany))).symm
  · intro m hm
    obtain ⟨d, -, rfl⟩ := List.mem_map.mp (List.mem_filter.mp hm).1
    exact Text.trim_trim d

lemma drop_edit (p : Patch) (cs : List Constraint) :
    ((p.edit cs).drop cs.length).map (·.tag) =
      ((p.additions.map fun t => Text.trim t.source).filter
        (· ∉ cs.map fun c => Text.trim c.tag)).eraseDups ∧
    ∀ e ∈ (p.edit cs).drop cs.length, p.Creates e := by
  rw [edit_eq_map, ← List.map_drop, Constraint.drop_addPairs, Constraint.addPairs_nil_entries]
  constructor
  · rw [List.map_map, List.map_map, List.filter_map]
    exact List.map_id _
  · intro e he
    obtain ⟨made, hmade, rfl⟩ := List.mem_map.mp he
    obtain ⟨tag, htag, rfl⟩ := List.mem_map.mp hmade
    obtain ⟨t, ht, rfl⟩ := List.mem_map.mp (List.mem_eraseDups.mp htag)
    have hfresh := of_decide_eq_true (List.mem_filter.mp ht).2
    -- the additions for this source are the same with and without those that entries take
    have hall : Constraint.dependenciesFrom (Text.trim t.source)
        (p.additions.filter fun u => Text.trim u.source ∉ cs.map fun c => Text.trim c.tag) =
          Constraint.dependenciesFrom (Text.trim t.source) p.additions := by
      rw [Constraint.dependenciesFrom, List.filter_filter, Constraint.dependenciesFrom]
      refine congrArg _ (List.filter_congr fun u _ => ?_)
      by_cases hu : Text.trim u.source = Text.trim t.source
      · simpa [hu] using hfresh
      · simp [hu]
    rw [hall, Constraint.extend_eq, List.nil_append]
    refine ⟨(nodup_eraseDups _).filter _, fun n => ?_⟩
    rw [mem_filter_removes, List.mem_filter, Constraint.mem_dependenciesFrom_trim, Text.trim_trim]
    · simp
    · intro m hm
      obtain ⟨d, -, rfl⟩ := List.mem_map.mp (List.mem_filter.mp hm).1
      exact Text.trim_trim d

/-- A patch edits exactly the pairs that it names and keeps everything else. -/
theorem apply_effect (p : Patch) (c : Config) :
    p.apply c = { c with constraints := (p.apply c).constraints } ∧
    (∀ q, q ∈ declaredPairs (p.apply c).constraints ↔
      (q ∈ declaredPairs c.constraints ∨ q ∈ p.additions.map TagPair.trimmed) ∧
        q ∉ p.prunes.map TagPair.trimmed) ∧
    (∀ i e, c.constraints[i]? = some e →
      ∃ e', (p.apply c).constraints[i]? = some e' ∧ p.Revises (c.constraints.take i) e e') ∧
    ((p.apply c).constraints.drop c.constraints.length).map (·.tag) =
      ((p.additions.map fun t => Text.trim t.source).filter
        (· ∉ c.constraints.map fun e => Text.trim e.tag)).eraseDups ∧
    (∀ e ∈ (p.apply c).constraints.drop c.constraints.length, p.Creates e) ∧
    ∀ tag, ((p.apply c).dependenciesOf tag).Nodup ∧
      ∀ dep, dep ∈ (p.apply c).dependenciesOf tag ↔
        ⟨Text.trim tag, dep⟩ ∈ declaredPairs (p.apply c).constraints := by
  obtain ⟨htags, hcreates⟩ := p.drop_edit c.constraints
  refine ⟨by rw [apply_eq], ?_, ?_, ?_, ?_, ?_⟩
  · intro q
    rw [apply_eq, mem_declaredPairs_edit]
    simp [eq_comm]
  · intro i e he
    rw [apply_eq]
    exact getElem?_edit he
  · rw [apply_eq]
    exact htags
  · rw [apply_eq]
    exact hcreates
  · intro tag
    refine ⟨?_, fun dep => Config.mem_dependenciesOf⟩
    rw [Config.dependenciesOf_eq]
    exact nodup_eraseDups _

end Patch

namespace Sample

/-- Two entries for one tag, differently padded, one of them with a dependency listed twice. -/
def paddedConfig : Config :=
  { Config.default with constraints := [⟨" a", ["x", " y ", "x"]⟩, ⟨"a ", ["z"]⟩] }

/-- Additions that are listed, repeated or removed again, for old tags and new ones. -/
def mixedPatch : Patch where
  additions :=
    [⟨"a", " y"⟩, ⟨"b ", "x"⟩, ⟨" a", "w "⟩, ⟨"b", "x "⟩, ⟨"c", "d"⟩, ⟨"b", "q"⟩]
  prunes := [⟨"a", "x "⟩, ⟨"b", " q"⟩, ⟨" c", "d"⟩]

end Sample

theorem Patch.apply_effect_sample :
    (Sample.mixedPatch.apply Sample.paddedConfig).constraints =
      [⟨" a", [" y ", "w"]⟩, ⟨"a ", ["z"]⟩, ⟨"b", ["x"]⟩, ⟨"c", []⟩] ∧
    Sample.mixedPatch.Revises [] ⟨" a", ["x", " y ", "x"]⟩ ⟨" a", [" y ", "w"]⟩ ∧
    Sample.mixedPatch.Creates ⟨"b", ["x"]⟩ ∧
    "d" ∉ (Sample.mixedPatch.apply Sample.paddedConfig).dependenciesOf "c" := by
  have hresult : (Sample.mixedPatch.apply Sample.paddedConfig).constraints =
      [⟨" a", [" y ", "w"]⟩, ⟨"a ", ["z"]⟩, ⟨"b", ["x"]⟩, ⟨"c", []⟩] := by decide +kernel
  obtain ⟨-, hpairs, hrevises, -, hcreates, hdependencies⟩ :=
    Sample.mixedPatch.apply_effect Sample.paddedConfig
  refine ⟨hresult, ?_, ?_, ?_⟩
  · obtain ⟨e', he', h⟩ := hrevises 0 ⟨" a", ["x", " y ", "x"]⟩ rfl
    rw [hresult] at he'
    cases he'
    exact h
  · apply hcreates
    rw [hresult]
    decide
  · rw [(hdependencies "c").2, hpairs]
    decide +kernel

end ImportFence
