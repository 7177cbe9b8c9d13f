import ImportFence.Suppression
import Mathlib.Data.List.DropRight
import Mathlib.Tactic.Common

/-!
# The grammar of directives

A directive is a `#`, the marker and the word `ignore` with white space between them, and a rest
that is empty or begins with white space. The reason is what stands between the first two quotes
behind `reason=`. Reading trims the text at both ends before each word it expects; trimming the end
only shortens the rest, and never reaches into a word or past a closing quote.
-/

namespace ImportFence

namespace Text

/-- A run of white space, which may be empty. -/
def Blank (w : List Char) : Prop :=
  ∀ c ∈ w, isWhite c = true

lemma trimStart_append {w : List Char} (hw : Blank w) (s : List Char) :
    trimStart (w ++ s) = trimStart s :=
  List.dropWhile_append_of_pos hw

lemma trimStart_of_solid {s : List Char} (h : ∀ c ∈ s.head?, isWhite c = false) :
    trimStart s = s := by
  cases s with
  | nil => rfl
  | cons c s => exact List.dropWhile_cons_of_neg (by simp [h c rfl])

lemma exists_blank_trimEnd (s : List Char) : ∃ w, Blank w ∧ s = trimEnd s ++ w := by
  refine ⟨(s.reverse.takeWhile isWhite).reverse, ?_, ?_⟩
  · intro c hc
    exact List.mem_takeWhile_imp (List.mem_reverse.mp hc)
  · rw [trimEnd, ← List.reverse_append, List.takeWhile_append_dropWhile, List.reverse_reverse]

lemma trimEnd_cons (c : Char) (s : List Char) :
    trimEnd (c :: s) = if trimEnd s = [] ∧ isWhite c then [] else c :: trimEnd s := by
  unfold trimEnd
  rw [List.reverse_cons, List.dropWhile_append]
  by_cases hs : s.reverse.dropWhile isWhite = []
  · cases hc : isWhite c <;> simp [hs, hc]
  · simp [hs]

lemma trimEnd_append_cons {c : Char} (hc : isWhite c = false) (s t : List Char) :
    trimEnd (s ++ c :: t) = s ++ c :: trimEnd t := by
  induction s with
  | nil => rw [List.nil_append, trimEnd_cons, if_neg (by simp [hc]), List.nil_append]
  | cons d s ih =>
    rw [List.cons_append, trimEnd_cons, ih, if_neg (by simp), List.cons_append]

lemma trimEnd_append {s : List Char} (hne : s ≠ []) (hs : ∀ c ∈ s, isWhite c = false)
    (t : List Char) : trimEnd (s ++ t) = s ++ trimEnd t := by
  rw [← List.dropLast_append_getLast hne, List.append_assoc, List.append_assoc]
  exact trimEnd_append_cons (hs _ (List.getLast_mem hne)) s.dropLast t

lemma trimStart_trimEnd (s : List Char) : trimStart (trimEnd s) = trimEnd (trimStart s) := by
  induction s with
  | nil => rfl
  | cons c s ih =>
    rw [trimEnd_cons]
    cases hc : isWhite c with
    | false =>
      rw [if_neg (by simp), trimStart_of_solid (by simpa using hc),
        trimStart_of_solid (by simpa using hc), trimEnd_cons, if_neg (by simp [hc])]
    | true =>
      have hdrop : ∀ t, trimStart (c :: t) = trimStart t :=
        fun t => trimStart_append (w := [c]) (by simpa [Blank] using hc) t
      by_cases hs : trimEnd s = []
      · rw [if_pos (by simp [hs]), hdrop, ← ih, hs]
      · rw [if_neg (by simp [hs]), hdrop, hdrop, ih]

lemma trimEnd_trimEnd (s : List Char) : trimEnd (trimEnd s) = trimEnd s :=
  List.rdropWhile_idempotent isWhite s

lemma trimChars_trimEnd (s : List Char) : trimChars (trimEnd s) = trimChars s := by
  rw [trimChars, trimStart_trimEnd, trimEnd_trimEnd, trimChars]

/-- A word without white space in it begins a trimmed text if only white space stands before it in
the text itself. What follows it is trimmed at the end only. -/
lemma after?_trimChars_eq_some_iff {word : List Char} (hne : word ≠ [])
    (hsolid : word.any isWhite = false) {s t : List Char} :
    after? word (trimChars s) = some t ↔
      ∃ w u, Blank w ∧ s = w ++ (word ++ u) ∧ t = trimEnd u := by
  have hword : ∀ c ∈ word, isWhite c = false := by simpa using hsolid
  rw [after?, List.isPrefixOf?_eq_some_iff_append_eq]
  constructor
  · intro h
    obtain ⟨b, hb, hsplit⟩ := exists_blank_trimEnd (trimStart s)
    have hbody : trimStart s = word ++ (t ++ b) := by
      rw [← List.append_assoc, h]
      exact hsplit
    refine ⟨s.takeWhile isWhite, t ++ b, fun c hc => List.mem_takeWhile_imp hc, ?_, ?_⟩
    · rw [← hbody]
      exact List.takeWhile_append_dropWhile.symm
    · rw [trimChars, hbody, trimEnd_append hne hword] at h
      exact List.append_cancel_left h
  · rintro ⟨w, u, hw, rfl, rfl⟩
    have hhead : ∀ c ∈ (word ++ u).head?, isWhite c = false := by
      cases word with
      | nil => exact absurd rfl hne
      | cons d word => simpa using hword d List.mem_cons_self
    rw [trimChars, trimStart_append hw, trimStart_of_solid hhead, trimEnd_append hne hword]

lemma head?_trimEnd_white (s : List Char) :
    ((trimEnd s).head?.any fun c => !isWhite c) = s.head?.any fun c => !isWhite c := by
  cases s with
  | nil => rfl
  | cons c s =>
    rw [trimEnd_cons]
    split
    · next h => simp [h.2]
    · simp

end Text

namespace Directive

open Text

/-- The comment opens a directive, with a given rest behind the word `ignore`. -/
def Opens (comment rest : List Char) : Prop :=
  ∃ w₁ w₂ w₃, Blank w₁ ∧ Blank w₂ ∧ Blank w₃ ∧
    comment = w₁ ++ ("#".toList ++ (w₂ ++ ("tagbound:".toList ++
      (w₃ ++ ("ignore".toList ++ rest))))) ∧
    ∀ c ∈ rest.head?, isWhite c = true

/-- The rest behind the word `ignore` gives a reason. -/
def GivesReason (rest : List Char) (reason : String) : Prop :=
  ∃ w₄ w₅ tail, Blank w₄ ∧ Blank w₅ ∧ '"' ∉ reason.toList ∧
    rest = w₄ ++ ("reason=".toList ++ (w₅ ++ ("\"".toList ++ (reason.toList ++
      ("\"".toList ++ tail)))))

lemma upToQuote_eq_some_iff {u : List Char} {reason : String} :
    (if (trimEnd u).contains '"' then some (String.ofList ((trimEnd u).takeWhile (· ≠ '"')))
      else none) = some reason ↔
      '"' ∉ reason.toList ∧ ∃ tail, u = reason.toList ++ ("\"".toList ++ tail) := by
  have htrim : ∀ front tail, trimEnd (front ++ '"' :: tail) = front ++ '"' :: trimEnd tail :=
    trimEnd_append_cons (by decide)
  have htake : ∀ front tail : List Char, '"' ∉ front →
      (front ++ '"' :: tail).takeWhile (· ≠ '"') = front := by
    intro front tail hfront
    have hkept : ∀ c ∈ front, decide (c ≠ '"') = true := by
      intro c hc
      exact decide_eq_true fun h => hfront (h ▸ hc)
    rw [List.takeWhile_append_of_pos hkept]
    simp
  constructor
  · intro h
    obtain ⟨w, -, hu⟩ := exists_blank_trimEnd u
    split at h
    · next hquote =>
      obtain ⟨front, tail, hsplit, hfront⟩ :=
        List.eq_append_cons_of_mem (List.contains_iff_mem.mp hquote)
      rw [hsplit, htake front tail hfront] at h
      cases h
      rw [String.toList_ofList]
      exact ⟨hfront, tail ++ w, by rw [hu, hsplit, List.append_assoc]; rfl⟩
    · cases h
  · rintro ⟨hreason, tail, hu⟩
    have hbody : trimEnd u = reason.toList ++ '"' :: trimEnd tail := hu ▸ htrim _ tail
    rw [hbody, htake _ _ hreason, if_pos (by simp), String.ofList_toList]

lemma reasonOf_eq_some_iff {rest : List Char} {reason : String} :
    reasonOf (trimEnd rest) = some reason ↔ GivesReason rest reason := by
  unfold reasonOf GivesReason
  rw [trimChars_trimEnd]
  simp only [Option.bind_eq_bind, Option.bind_eq_some_iff,
    @after?_trimChars_eq_some_iff "reason=".toList (by decide) (by decide)]
  constructor
  · rintro ⟨value, ⟨w₄, u, hw₄, rfl, rfl⟩, quoted, hquoted, h⟩
    rw [trimChars_trimEnd, after?_trimChars_eq_some_iff (by decide) (by decide)] at hquoted
    obtain ⟨w₅, v, hw₅, rfl, rfl⟩ := hquoted
    obtain ⟨hreason, tail, rfl⟩ := upToQuote_eq_some_iff.mp h
    exact ⟨w₄, w₅, tail, hw₄, hw₅, hreason, rfl⟩
  · rintro ⟨w₄, w₅, tail, hw₄, hw₅, hreason, rfl⟩
    refine ⟨_, ⟨w₄, _, hw₄, rfl, rfl⟩, _, ?_, upToQuote_eq_some_iff.mpr ⟨hreason, tail, rfl⟩⟩
    rw [trimChars_trimEnd, after?_trimChars_eq_some_iff (by decide) (by decide)]
    exact ⟨w₅, _, hw₅, rfl, rfl⟩

lemma ofComment?_eq_some_iff {comment : List Char} {d : Directive} :
    ofComment? comment = some d ↔
      ∃ rest, Opens comment rest ∧ d = ⟨reasonOf (trimEnd rest)⟩ := by
  unfold ofComment? Opens
  simp only [Option.bind_eq_bind, Option.bind_eq_some_iff, marker]
  constructor
  · rintro ⟨body, hbody, directive, hdirective, rest, hrest, h⟩
    rw [after?_trimChars_eq_some_iff (by decide) (by decide)] at hbody
    obtain ⟨w₁, u₁, hw₁, rfl, rfl⟩ := hbody
    rw [trimChars_trimEnd, after?_trimChars_eq_some_iff (by decide) (by decide)] at hdirective
    obtain ⟨w₂, u₂, hw₂, rfl, rfl⟩ := hdirective
    rw [trimChars_trimEnd, after?_trimChars_eq_some_iff (by decide) (by decide)] at hrest
    obtain ⟨w₃, u₃, hw₃, rfl, rfl⟩ := hrest
    rw [head?_trimEnd_white] at h
    split at h
    · cases h
    · next hwhite =>
      cases h
      exact ⟨u₃, ⟨w₁, w₂, w₃, hw₁, hw₂, hw₃, rfl, by simpa [Option.any_eq_false] using hwhite⟩, rfl⟩
  · rintro ⟨rest, ⟨w₁, w₂, w₃, hw₁, hw₂, hw₃, rfl, hwhite⟩, rfl⟩
    refine ⟨_, (after?_trimChars_eq_some_iff (by decide) (by decide)).mpr
      ⟨w₁, _, hw₁, rfl, rfl⟩, trimEnd (w₃ ++ ("ignore".toList ++ rest)), ?_, trimEnd rest, ?_, ?_⟩
    · rw [trimChars_trimEnd, after?_trimChars_eq_some_iff (by decide) (by decide)]
      exact ⟨w₂, _, hw₂, rfl, rfl⟩
    · rw [trimChars_trimEnd, after?_trimChars_eq_some_iff (by decide) (by decide)]
      exact ⟨w₃, rest, hw₃, rfl, rfl⟩
    · rw [head?_trimEnd_white, if_neg (by simpa [Option.any_eq_false] using hwhite)]
      rfl

/-- A comment is a directive exactly when it is written as one, and its reason is the one that the
rest behind the words gives, if it gives any. -/
theorem ofComment?_grammar (comment : List Char) :
    ((∃ d, ofComment? comment = some d) ↔ ∃ rest, Opens comment rest) ∧
    ∀ d rest, ofComment? comment = some d → Opens comment rest →
      ∀ reason, d.reason = some reason ↔ GivesReason rest reason := by
  constructor
  · simp only [ofComment?_eq_some_iff]
    constructor
    · rintro ⟨d, rest, hopens, -⟩
      exact ⟨rest, hopens⟩
    · rintro ⟨rest, hopens⟩
      exact ⟨_, rest, hopens, rfl⟩
  · intro d rest hd hopens reason
    have hread := ofComment?_eq_some_iff.mpr ⟨rest, hopens, rfl⟩
    rw [hd] at hread
    cases hread
    exact reasonOf_eq_some_iff

/-- The reason keeps its blanks, and what follows the closing quote does not count. -/
theorem ofComment?_grammar_sample :
    ofComment? "\u2003#\u00a0tagbound:ignore\treason= \" a  \"b\" ".toList = some ⟨some " a  "⟩ ∧
    ∃ rest, Opens "\u2003#\u00a0tagbound:ignore\treason= \" a  \"b\" ".toList rest ∧
      GivesReason rest " a  " := by
  have hread : ofComment? "\u2003#\u00a0tagbound:ignore\treason= \" a  \"b\" ".toList =
      some ⟨some " a  "⟩ := by decide
  obtain ⟨haccepts, hreason⟩ :=
    ofComment?_grammar "\u2003#\u00a0tagbound:ignore\treason= \" a  \"b\" ".toList
  obtain ⟨rest, hopens⟩ := haccepts.mp ⟨_, hread⟩
  exact ⟨hread, rest, hopens, (hreason _ rest hread hopens " a  ").mp rfl⟩

end Directive

end ImportFence
