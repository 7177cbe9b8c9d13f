import ImportFence.Path.Module
import Mathlib.Data.List.Basic
import Mathlib.Tactic.Common

/-!
# Splitting, joining and normal paths

Splitting at a separator undoes joining, as long as no piece holds the separator. A normalized path
therefore has the steps of the path it comes from as its components.
-/

namespace ImportFence

namespace Text

lemma splitChars_cons_self (sep : Char) (cs : List Char) :
    splitChars sep (sep :: cs) = [] :: splitChars sep cs :=
  if_pos rfl

lemma splitChars_cons_ne {sep c : Char} {cs piece : List Char} {pieces : List (List Char)}
    (hc : c ≠ sep) (hrest : splitChars sep cs = piece :: pieces) :
    splitChars sep (c :: cs) = (c :: piece) :: pieces :=
  (if_neg hc).trans (by rw [hrest])

lemma joinChars_cons_cons (sep piece piece' : List Char) (pieces : List (List Char)) :
    joinChars sep (piece :: piece' :: pieces) =
      piece ++ sep ++ joinChars sep (piece' :: pieces) := rfl

lemma splitChars_ne_nil (sep : Char) (cs : List Char) : splitChars sep cs ≠ [] := by
  induction cs with
  | nil => exact List.cons_ne_nil _ _
  | cons c cs ih =>
    by_cases hc : c = sep
    · rw [hc, splitChars_cons_self]
      exact List.cons_ne_nil _ _
    · obtain ⟨piece, pieces, hrest⟩ := List.exists_cons_of_ne_nil ih
      rw [splitChars_cons_ne hc hrest]
      exact List.cons_ne_nil _ _

lemma splitChars_of_not_mem {sep : Char} {piece : List Char} (h : sep ∉ piece) :
    splitChars sep piece = [piece] := by
  induction piece with
  | nil => rfl
  | cons c piece ih =>
    obtain ⟨hc, hpiece⟩ := List.ne_and_not_mem_of_not_mem_cons h
    exact splitChars_cons_ne hc.symm (ih hpiece)

lemma splitChars_append {sep : Char} {piece : List Char} (h : sep ∉ piece) (rest : List Char) :
    splitChars sep (piece ++ sep :: rest) = piece :: splitChars sep rest := by
  induction piece with
  | nil => exact splitChars_cons_self sep rest
  | cons c piece ih =>
    obtain ⟨hc, hpiece⟩ := List.ne_and_not_mem_of_not_mem_cons h
    exact splitChars_cons_ne hc.symm (ih hpiece)

lemma splitChars_joinChars {sep : Char} {pieces : List (List Char)} (hne : pieces ≠ [])
    (h : ∀ piece ∈ pieces, sep ∉ piece) : splitChars sep (joinChars [sep] pieces) = pieces := by
  induction pieces with
  | nil => exact absurd rfl hne
  | cons piece pieces ih =>
    obtain ⟨hpiece, hpieces⟩ := List.forall_mem_cons.mp h
    cases pieces with
    | nil => exact splitChars_of_not_mem hpiece
    | cons piece' pieces =>
      rw [joinChars_cons_cons, List.append_assoc, List.singleton_append, splitChars_append hpiece,
        ih (List.cons_ne_nil _ _) hpieces]

lemma joinChars_cons (sep piece : List Char) (pieces : List (List Char)) :
    ∃ rest, joinChars sep (piece :: pieces) = piece ++ rest := by
  cases pieces with
  | nil => exact ⟨[], (List.append_nil piece).symm⟩
  | cons piece' pieces =>
    exact ⟨sep ++ joinChars sep (piece' :: pieces), by rw [joinChars_cons_cons, List.append_assoc]⟩

lemma not_mem_of_mem_splitChars {sep : Char} {cs piece : List Char}
    (h : piece ∈ splitChars sep cs) : sep ∉ piece := by
  induction cs generalizing piece with
  | nil =>
    rw [List.mem_singleton.mp h]
    exact List.not_mem_nil
  | cons c cs ih =>
    by_cases hc : c = sep
    · rw [hc, splitChars_cons_self] at h
      rcases List.mem_cons.mp h with rfl | h
      · exact List.not_mem_nil
      · exact ih h
    · obtain ⟨first, rest, hsplit⟩ := List.exists_cons_of_ne_nil (splitChars_ne_nil sep cs)
      rw [splitChars_cons_ne hc hsplit] at h
      rcases List.mem_cons.mp h with rfl | h
      · have hfirst := ih (hsplit ▸ List.mem_cons_self)
        simp [hfirst, Ne.symm hc]
      · exact ih (hsplit ▸ List.mem_cons_of_mem first h)

lemma split_join {sep : Char} {pieces : List String} (hne : pieces ≠ [])
    (h : ∀ piece ∈ pieces, sep ∉ piece.toList) :
    split sep (join (String.singleton sep) pieces) = pieces := by
  rw [split, join, String.toList_ofList, String.toList_singleton, splitChars_joinChars]
  · simp
  · simpa using hne
  · simpa using h

end Text

namespace Path

/-- A name that can stand between slashes and leads to a child. -/
def IsName (t : String) : Prop :=
  t ≠ "" ∧ '/' ∉ t.toList ∧ t ≠ "." ∧ t ≠ ".."

/-- A component behind the first one of a normal path. -/
def IsStep : Component → Prop
  | .parent => True
  | .name t => IsName t
  | _ => False

lemma segment_spec {p : Path} {t : String} (h : t ∈ p.segments) : t ≠ "" ∧ '/' ∉ t.toList := by
  obtain ⟨hmem, hne⟩ := List.mem_filter.mp h
  refine ⟨by simpa using hne, ?_⟩
  obtain ⟨piece, hpiece, rfl⟩ := List.mem_map.mp hmem
  rw [String.toList_ofList]
  exact Text.not_mem_of_mem_splitChars hpiece

/-- The components of a path, the root apart and without `.`. -/
def relativeSteps (p : Path) : List Component :=
  (p.segments.map Component.ofText).filter (· ≠ .current)

lemma isStep_of_mem {p : Path} {c : Component} (h : c ∈ p.relativeSteps) : IsStep c := by
  obtain ⟨hmem, hne⟩ := List.mem_filter.mp h
  obtain ⟨t, ht, rfl⟩ := List.mem_map.mp hmem
  obtain ⟨hempty, hslash⟩ := segment_spec ht
  rw [Component.ofText] at hne ⊢
  split_ifs with hdot hdots
  · simp [hdot] at hne
  · trivial
  · exact ⟨hempty, hslash, hdot, hdots⟩

lemma steps_eq (p : Path) :
    p.steps = if p.isAbsolute then .root :: p.relativeSteps else p.relativeSteps := by
  have hself : p.relativeSteps.filter (· ≠ .current) = p.relativeSteps := by
    rw [relativeSteps, List.filter_filter]
    simp
  rw [steps, components]
  change List.filter _ (if p.isAbsolute = true then Component.root :: p.relativeSteps
    else if p.segments.head? = some "." then .current :: p.relativeSteps else p.relativeSteps) = _
  split_ifs
  · rw [List.filter_cons_of_pos (by simp), hself]
  · rw [List.filter_cons_of_neg (by simp), hself]
  · exact hself

lemma ofText_text {c : Component} (h : IsStep c) : Component.ofText c.text = c := by
  cases c with
  | root => cases h
  | current => cases h
  | parent => rfl
  | name t =>
    obtain ⟨-, -, hdot, hdots⟩ := h
    simp [Component.text, Component.ofText, hdot, hdots]

lemma text_spec {c : Component} (h : IsStep c) :
    c.text ≠ "" ∧ '/' ∉ c.text.toList ∧ c.text ≠ "." := by
  cases c with
  | root => cases h
  | current => cases h
  | parent => decide
  | name t => exact ⟨h.1, h.2.1, h.2.2.1⟩

lemma segments_join {cs : List Component} (h : ∀ c ∈ cs, IsStep c) :
    (Text.split '/' (Text.join "/" (cs.map Component.text))).filter (· ≠ "") =
      cs.map Component.text := by
  by_cases hne : cs = []
  · subst hne
    rfl
  · have hsplit : Text.split '/' (Text.join "/" (cs.map Component.text)) = cs.map Component.text :=
      Text.split_join (by simpa using hne) fun t ht => by
        obtain ⟨c, hc, rfl⟩ := List.mem_map.mp ht
        exact (text_spec (h c hc)).2.1
    rw [hsplit, List.filter_eq_self]
    intro t ht
    obtain ⟨c, hc, rfl⟩ := List.mem_map.mp ht
    simpa using (text_spec (h c hc)).1

lemma map_ofText {cs : List Component} (h : ∀ c ∈ cs, IsStep c) :
    ((cs.map Component.text).map Component.ofText).filter (· ≠ .current) = cs := by
  have hback : (cs.map Component.text).map Component.ofText = cs := by
    rw [List.map_map]
    conv_rhs => rw [← List.map_id cs]
    exact List.map_congr_left fun c hc => ofText_text (h c hc)
  rw [hback, List.filter_eq_self]
  intro c hc
  have hstep := h c hc
  cases c <;> simp_all [IsStep]

lemma head?_join {cs : List Component} (h : ∀ c ∈ cs, IsStep c) :
    (Text.join "/" (cs.map Component.text)).toList.head? ≠ some '/' := by
  cases cs with
  | nil => simp [Text.join, Text.joinChars]
  | cons c cs =>
    obtain ⟨hempty, hslash, -⟩ := text_spec (h c List.mem_cons_self)
    obtain ⟨rest, hrest⟩ : ∃ rest, (Text.join "/" ((c :: cs).map Component.text)).toList =
        c.text.toList ++ rest := by
      rw [Text.join, String.toList_ofList, List.map_cons, List.map_cons]
      exact Text.joinChars_cons _ _ _
    intro hhead
    rw [hrest, List.head?_append_of_ne_nil _ (by simpa using hempty)] at hhead
    exact hslash (List.mem_of_mem_head? hhead)

lemma components_relative {cs : List Component} (h : ∀ c ∈ cs, IsStep c) :
    (ofComponents cs).components = cs := by
  have hof : ofComponents cs = ⟨Text.join "/" (cs.map Component.text)⟩ := by
    cases cs with
    | nil => rfl
    | cons c cs =>
      have hc := h c List.mem_cons_self
      cases c <;> first | rfl | cases hc
  have hsegments : (ofComponents cs).segments = cs.map Component.text := by
    rw [hof]
    exact segments_join h
  have habsolute : (ofComponents cs).isAbsolute = false := by
    rw [hof]
    simpa [isAbsolute] using head?_join h
  have hcurrent : (cs.map Component.text).head? ≠ some "." := by
    cases cs with
    | nil => simp
    | cons c cs => simpa using (text_spec (h c List.mem_cons_self)).2.2
  rw [components, hsegments, habsolute, map_ofText h, if_neg hcurrent]
  rfl

lemma components_absolute {cs : List Component} (h : ∀ c ∈ cs, IsStep c) :
    (ofComponents (.root :: cs)).components = .root :: cs := by
  have hsegments : (ofComponents (.root :: cs)).segments = cs.map Component.text := by
    rw [← segments_join h, segments, ofComponents, Text.split, Text.split]
    simp [Text.splitChars_cons_self]
  have habsolute : (ofComponents (.root :: cs)).isAbsolute = true := by
    simp [ofComponents, isAbsolute]
  rw [components, hsegments, habsolute, map_ofText h]
  rfl

lemma components_normalize (p : Path) : p.normalize.components = p.steps := by
  rw [normalize, steps_eq]
  split
  · exact components_absolute fun c hc => isStep_of_mem hc
  · exact components_relative fun c hc => isStep_of_mem hc

lemma steps_normalize (p : Path) : p.normalize.steps = p.steps := by
  rw [steps, components_normalize, steps, List.filter_filter]
  simp

lemma name_ne_empty {p : Path} {t : String} (h : .name t ∈ p.steps) : t ≠ "" := by
  have hmem : .name t ∈ p.relativeSteps := by
    rw [steps_eq] at h
    split at h
    · simpa using h
    · exact h
  exact (isStep_of_mem hmem).1

lemma same_iff {a b : Path} : a.same b = true ↔ a.components = b.components :=
  decide_eq_true_iff

end Path

end ImportFence
