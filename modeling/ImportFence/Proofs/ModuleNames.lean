import ImportFence.Proofs.Paths

/-!
# Module names

A module covers another one exactly if its segments begin the segments of the other. The module of a
directory below a source root has the names of the directory as its segments, and the module of a
file lies below the modules of the directories around it.
-/

namespace ImportFence

namespace Text

lemma splitChars_append_sep (sep : Char) (cs rest : List Char) :
    splitChars sep (cs ++ sep :: rest) = splitChars sep cs ++ splitChars sep rest := by
  induction cs with
  | nil => exact splitChars_cons_self sep rest
  | cons c cs ih =>
    by_cases hc : c = sep
    · rw [List.cons_append, hc, splitChars_cons_self, splitChars_cons_self, ih, List.cons_append]
    · obtain ⟨piece, pieces, hcs⟩ := List.exists_cons_of_ne_nil (splitChars_ne_nil sep cs)
      rw [hcs] at ih
      rw [List.cons_append] at ih
      rw [List.cons_append, splitChars_cons_ne hc hcs, splitChars_cons_ne hc ih, List.cons_append]

lemma joinChars_append {sep : List Char} {front back : List (List Char)} (hfront : front ≠ [])
    (hback : back ≠ []) :
    joinChars sep (front ++ back) = joinChars sep front ++ sep ++ joinChars sep back := by
  induction front with
  | nil => exact absurd rfl hfront
  | cons piece front ih =>
    cases front with
    | nil =>
      cases back with
      | nil => exact absurd rfl hback
      | cons piece' back => rfl
    | cons piece' front =>
      have hrest := ih (by simp)
      change piece ++ sep ++ joinChars sep (piece' :: front ++ back) =
        piece ++ sep ++ joinChars sep (piece' :: front) ++ sep ++ joinChars sep back
      rw [hrest]
      simp only [List.append_assoc]

lemma joinChars_splitChars (sep : Char) (cs : List Char) :
    joinChars [sep] (splitChars sep cs) = cs := by
  induction cs with
  | nil => rfl
  | cons c cs ih =>
    obtain ⟨piece, pieces, hcs⟩ := List.exists_cons_of_ne_nil (splitChars_ne_nil sep cs)
    rw [hcs] at ih
    by_cases hc : c = sep
    · rw [hc, splitChars_cons_self, hcs, joinChars_cons_cons, ih]
      rfl
    · rw [splitChars_cons_ne hc hcs, ← ih]
      cases pieces <;> rfl

lemma splitChars_isPrefix_iff {sep : Char} {short long : List Char} :
    splitChars sep short <+: splitChars sep long ↔
      short = long ∨ ∃ rest, short ++ sep :: rest = long := by
  constructor
  · rintro ⟨pieces, hpieces⟩
    have hlong := joinChars_splitChars sep long
    rw [← hpieces] at hlong
    by_cases hne : pieces = []
    · left
      rw [hne, List.append_nil, joinChars_splitChars] at hlong
      exact hlong
    · right
      rw [joinChars_append (splitChars_ne_nil sep short) hne, joinChars_splitChars] at hlong
      exact ⟨joinChars [sep] pieces, by simpa using hlong⟩
  · rintro (rfl | ⟨rest, rfl⟩)
    · exact List.prefix_rfl
    · rw [splitChars_append_sep]
      exact List.prefix_append _ _

lemma bytesOf_append (front back : List Char) :
    bytesOf (front ++ back) = bytesOf front + bytesOf back := by
  induction front with
  | nil => simp [bytesOf]
  | cons c front ih => rw [List.cons_append, bytesOf, ih, bytesOf, Nat.add_assoc]

lemma eq_of_bytes_le {short long : String} (h : short.toList <+: long.toList)
    (hbytes : bytes long ≤ bytes short) : short = long := by
  obtain ⟨rest, hrest⟩ := h
  cases rest with
  | nil => exact String.toList_inj.mp (by simpa using hrest)
  | cons c rest =>
    have hpos : 0 < charBytes c := c.utf8Size_pos
    rw [bytes, bytes, ← hrest, bytesOf_append, bytesOf] at hbytes
    omega

lemma splitLastChars?_append {sep : Char} {before after : List Char} (h : sep ∉ after) :
    splitLastChars? sep (before ++ sep :: after) = some (before, after) := by
  have hnone : splitLastChars? sep after = none := by
    induction after with
    | nil => rfl
    | cons c after ih =>
      obtain ⟨hc, hafter⟩ := List.ne_and_not_mem_of_not_mem_cons h
      rw [splitLastChars?, ih hafter]
      exact if_neg hc.symm
  induction before with
  | nil =>
    rw [List.nil_append, splitLastChars?, hnone]
    exact if_pos rfl
  | cons c before ih => rw [List.cons_append, splitLastChars?, ih]

end Text

namespace Module
open Text

/-- A name without the dot, which separates the segments of a module. -/
def IsSegment (name : String) : Prop :=
  '.' ∉ name.toList

instance (name : String) : Decidable (IsSegment name) :=
  inferInstanceAs (Decidable (¬ _))

/-- One module covers another exactly if its segments begin those of the other. -/
theorem covers_iff {outer inner : String} :
    covers outer inner = true ↔ split '.' outer <+: split '.' inner := by
  have hpieces : split '.' outer <+: split '.' inner ↔
      splitChars '.' outer.toList <+: splitChars '.' inner.toList := by
    rw [split, split]
    constructor
    · intro h
      have hback := h.map String.toList
      simpa only [List.map_map, Function.comp_def, String.toList_ofList, List.map_id'] using hback
    · intro h
      exact h.map String.ofList
  rw [hpieces, splitChars_isPrefix_iff, covers, after?]
  cases hafter : outer.toList.isPrefixOf? inner.toList with
  | none =>
    have hnot : ∀ rest, outer.toList ++ rest ≠ inner.toList := by
      intro rest heq
      rw [List.isPrefixOf?_eq_some_iff_append_eq.mpr heq] at hafter
      cases hafter
    constructor
    · intro h
      cases h
    · rintro (heq | ⟨rest, heq⟩)
      · exact absurd (by simpa using heq) (hnot [])
      · exact absurd heq (hnot _)
  | some rest =>
    rw [← List.isPrefixOf?_eq_some_iff_append_eq.mp hafter]
    cases rest with
    | nil => simp
    | cons c rest =>
      simp only [beq_iff_eq, List.append_right_inj, List.cons.injEq, List.self_eq_append_right,
        reduceCtorEq, false_or, exists_eq_right]
      exact eq_comm

lemma isPrefix_of_covers {outer inner : String} (h : covers outer inner = true) :
    outer.toList <+: inner.toList := by
  rw [covers, after?] at h
  cases hafter : outer.toList.isPrefixOf? inner.toList with
  | none =>
    rw [hafter] at h
    cases h
  | some rest => exact ⟨rest, List.isPrefixOf?_eq_some_iff_append_eq.mp hafter⟩

/-- At most one module with a given number of bytes covers another one. -/
lemma eq_of_covers {outer outer' inner : String} (h : covers outer inner = true)
    (h' : covers outer' inner = true) (hbytes : bytes outer = bytes outer') : outer = outer' := by
  rcases List.prefix_or_prefix_of_prefix (isPrefix_of_covers h) (isPrefix_of_covers h') with
    hbegins | hbegins
  · exact eq_of_bytes_le hbegins (Nat.le_of_eq hbytes.symm)
  · exact (eq_of_bytes_le hbegins (Nat.le_of_eq hbytes)).symm

lemma join_ne_empty {names : List String} (hne : names ≠ []) (h : ∀ n ∈ names, n ≠ "") :
    Text.join "." names ≠ "" := by
  obtain ⟨first, rest, rfl⟩ := List.exists_cons_of_ne_nil hne
  obtain ⟨tail, htail⟩ := joinChars_cons ['.'] first.toList (rest.map String.toList)
  have hfirst : first.toList ≠ [] := by simpa using h first List.mem_cons_self
  intro hempty
  have hchars : first.toList ++ tail = [] := by
    rw [← htail]
    simpa [Text.join] using congrArg String.toList hempty
  exact hfirst (List.append_eq_nil_iff.mp hchars).1

/-! ### Modules of directories and files -/

lemma namesOf?_eq_some_iff {cs : List Component} {names : List String} :
    namesOf? cs = some names ↔ cs = names.map .name := by
  induction cs generalizing names with
  | nil => cases names <;> simp [namesOf?]
  | cons c cs ih =>
    rw [namesOf?, List.mapM_cons]
    change (_ >>= fun n => namesOf? cs >>= fun ns => some (n :: ns)) = some names ↔ _
    cases c with
    | name t =>
      cases names with
      | nil => simp [Option.bind_eq_some_iff]
      | cons n names => simp [Option.bind_eq_some_iff, ih, and_comm]
    | root => cases names <;> simp
    | current => cases names <;> simp
    | parent => cases names <;> simp

lemma belowSourceRoot?_single {root p : Path} {rest : List Component} :
    belowSourceRoot? [root] p = some rest ↔ p.steps = root.steps ++ rest := by
  rw [belowSourceRoot?, List.findSome?_singleton, Path.below?,
    List.isPrefixOf?_eq_some_iff_append_eq, eq_comm]

lemma ofDirectory?_single {root dir : Path} {module : String} :
    ofDirectory? [root] dir = some module ↔
      ∃ names ≠ [], dir.steps = root.steps ++ names.map .name ∧ module = Text.join "." names := by
  simp only [ofDirectory?, Option.bind_eq_bind, Option.bind_eq_some_iff, belowSourceRoot?_single,
    namesOf?_eq_some_iff]
  constructor
  · rintro ⟨rest, hsteps, names, rfl, hmodule⟩
    split at hmodule
    · cases hmodule
    · rename_i hne
      exact ⟨names, by simpa using hne, hsteps, (Option.some.inj hmodule).symm⟩
  · rintro ⟨names, hne, hsteps, rfl⟩
    exact ⟨_, hsteps, names, rfl, by simp [hne]⟩

lemma dropExtension_append (dirs : List String) (name : String) :
    dropExtension ((dirs ++ [name]).map .name) = dirs.map .name ++ [stemComponent name] := by
  induction dirs with
  | nil => rfl
  | cons dir dirs ih =>
    cases dirs with
    | nil => rfl
    | cons dir' dirs =>
      change Component.name dir :: dropExtension ((dir' :: dirs ++ [name]).map .name) = _
      rw [ih]
      rfl

/-- The last segment of the module of a file `<stem>.py`. -/
def lastSegment (stem : String) : String :=
  if stem = "" then ".py" else stem

lemma stemComponent_py {stem : String} (h : IsSegment stem) :
    stemComponent (stem ++ ".py") = .name (lastSegment stem) := by
  have hsplit : splitLastChars? '.' (stem ++ ".py").toList = some (stem.toList, ['p', 'y']) := by
    rw [String.toList_append]
    exact splitLastChars?_append (by decide)
  rw [stemComponent, Path.splitExtension?, hsplit, lastSegment]
  by_cases hempty : stem = ""
  · subst hempty
    rfl
  · obtain ⟨c, cs, hcs⟩ := List.exists_cons_of_ne_nil (l := stem.toList) (by simpa using hempty)
    have hstem : String.ofList (c :: cs) = stem := by rw [← hcs, String.ofList_toList]
    have hdots : ¬ (stem = "." ∨ stem = "..") := by
      rintro (rfl | rfl) <;> exact h (by decide)
    rw [hcs, if_neg hempty]
    dsimp only
    rw [hstem, if_neg hdots]

end Module

end ImportFence
