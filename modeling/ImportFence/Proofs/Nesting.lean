import ImportFence.Source.Statement
import ImportFence.Proofs.Readers

/-!
# Brackets

What the tokens of an expression show without being read: where a bracket or a literal that is
opened is closed again, and which tokens stand outside of all brackets and of the parameters of
functions without a name.
-/

namespace ImportFence.Source

namespace Kind

/-- Opening brackets, and the openings of literals and of the fields in them. -/
def opens : Kind → Bool
  | .mark m => ["(", "[", "\x7b"].contains m
  | .stringOpen => true
  | .fieldOpen => true
  | _ => false

/-- Closing brackets, and the closings of literals and of the fields in them. -/
def closes : Kind → Bool
  | .mark m => [")", "]", "\x7d"].contains m
  | .stringClose => true
  | .fieldClose => true
  | _ => false

/-- The tokens that never stand in an expression: the end of a statement, and the word that
only import statements have. -/
def ends (k : Kind) : Bool :=
  k = .mark ";" || k = .keyword "import"

/-- The tokens that may stand in a statement that imports nothing. -/
def stays (k : Kind) : Bool :=
  !k.ends

/-- The tokens that stand between expressions or before several of them, and not in a single one
outside of its brackets. -/
def divides : Kind → Bool
  | .mark m => ([",", ":", "="] ++ Statement.augmentedMarks).contains m
  | .keyword word => ["for", "yield"].contains word
  | _ => false

/-- The tokens that may stand anywhere in brackets and change no nesting there. -/
def inner (k : Kind) : Bool :=
  !k.opens && !k.closes && !k.ends

/-- The tokens that may stand among the parameters of a function without a name and change no
nesting there. -/
def even (k : Kind) : Bool :=
  k.inner && k ≠ .keyword "lambda" && k ≠ .mark ":"

/-- The tokens that may stand anywhere in an expression and change no nesting. -/
def plain (k : Kind) : Bool :=
  k.even && !k.divides

lemma of_opens {k : Kind} (h : k.opens = true) :
    k.closes = false ∧ k.ends = false ∧ k.divides = false := by
  cases k with
  | mark m =>
    have hm : m ∈ ["(", "[", "\x7b"] := by simpa [opens] using h
    clear h
    revert m
    decide
  | stringOpen => decide
  | fieldOpen => decide
  | _ => cases h

lemma of_closes {k : Kind} (h : k.closes = true) : k.opens = false ∧ k.ends = false := by
  cases k with
  | mark m =>
    have hm : m ∈ [")", "]", "\x7d"] := by simpa [closes] using h
    clear h
    revert m
    decide
  | stringClose => decide
  | fieldClose => decide
  | _ => cases h

end Kind

/-- How deep in brackets a place is, and in how many parameter lists of functions without a name
outside of brackets. -/
structure Nesting where
  depth : Nat
  lambdas : Nat
  deriving DecidableEq

namespace Nesting

/-- Not in brackets and not among parameters. -/
def outermost (s : Nesting) : Bool :=
  s.depth = 0 && s.lambdas = 0

/-- The nesting behind a token. -/
def next (s : Nesting) (k : Kind) : Nesting :=
  if k.opens then ⟨s.depth + 1, s.lambdas⟩
  else if k.closes then ⟨s.depth - 1, s.lambdas⟩
  else if s.depth ≠ 0 then s
  else if k = .keyword "lambda" then ⟨0, s.lambdas + 1⟩
  else if k = .mark ":" then ⟨0, s.lambdas - 1⟩
  else s

/-- What stands behind the first outermost token of a kind. -/
def behind? (k : Kind) : Nesting → List Kind → Option (List Kind)
  | _, [] => none
  | s, l :: ls => if s.outermost && l = k then some ls else behind? k (s.next l) ls

/-- Whether a kind of token stands outermost in a text. -/
def standsIn (k : Kind) (s : Nesting) (w : List Kind) : Bool :=
  (behind? k s w).isSome

/-- The parts of a text between the outermost tokens of a kind; always at least one. -/
def split (k : Kind) : Nesting → List Kind → List (List Kind)
  | _, [] => [[]]
  | s, l :: ls =>
    if s.outermost && l = k then [] :: split k s ls
    else (split k (s.next l) ls).modifyHead (l :: ·)

/-- The nesting behind a text in which nothing is closed that was not opened, no statement ends, and
no token that divides expressions stands outermost. -/
def track : Nesting → List Kind → Option Nesting
  | s, [] => some s
  | s, k :: ks =>
    if k.ends || k.closes && s.depth = 0 || s.outermost && k.divides then none
    else track (s.next k) ks

lemma track_append (s : Nesting) (v w : List Kind) :
    s.track (v ++ w) = (s.track v).bind fun t => t.track w := by
  induction v generalizing s with
  | nil => rfl
  | cons k v ih =>
    rw [List.cons_append, track, track]
    split
    · rfl
    · exact ih (s.next k)

@[simp] lemma standsIn_nil (k : Kind) (s : Nesting) : standsIn k s [] = false := rfl

lemma standsIn_cons (k l : Kind) (s : Nesting) (ls : List Kind) :
    standsIn k s (l :: ls) = (s.outermost && l = k || standsIn k (s.next l) ls) := by
  rw [standsIn, behind?]
  split
  · next h => simp [h]
  · next h => simp [h, standsIn]

lemma not_outermost_of_track {k l : Kind} (hk : k.divides = true) {s t : Nesting} {w : List Kind}
    (h : s.track (l :: w) = some t) :
    (s.outermost && l = k) = false ∧ (s.next l).track w = some t := by
  rw [track] at h
  split at h
  · cases h
  · next hfree =>
    refine ⟨?_, h⟩
    by_contra hl
    simp only [Bool.not_eq_false, Bool.and_eq_true, decide_eq_true_eq] at hl
    simp [hl.1, hl.2, hk] at hfree

/-- Tokens that divide expressions are found behind a text as if it was not there. -/
lemma behind?_append {k : Kind} (hk : k.divides = true) {s t : Nesting} {w : List Kind}
    (h : s.track w = some t) (ks : List Kind) : behind? k s (w ++ ks) = behind? k t ks := by
  induction w generalizing s with
  | nil =>
    cases h
    rfl
  | cons l w ih =>
    obtain ⟨hne, h⟩ := not_outermost_of_track hk h
    rw [List.cons_append, behind?, if_neg (by simp [hne]), ih h]

lemma standsIn_append {k : Kind} (hk : k.divides = true) {s t : Nesting} {w : List Kind}
    (h : s.track w = some t) (ks : List Kind) : standsIn k s (w ++ ks) = standsIn k t ks := by
  rw [standsIn, behind?_append hk h, standsIn]

lemma split_append {k : Kind} (hk : k.divides = true) {s t : Nesting} {w : List Kind}
    (h : s.track w = some t) (ks : List Kind) :
    split k s (w ++ ks) = (split k t ks).modifyHead (w ++ ·) := by
  induction w generalizing s with
  | nil =>
    cases h
    rw [List.nil_append]
    cases split k t ks <;> rfl
  | cons l w ih =>
    obtain ⟨hne, h⟩ := not_outermost_of_track hk h
    rw [List.cons_append, split, if_neg (by simp [hne]), ih h, List.modifyHead_modifyHead]
    rfl

end Nesting

/-- The depth in brackets behind a text in which nothing is closed that was not opened, and no
statement ends. -/
def level : Nat → List Kind → Option Nat
  | d, [] => some d
  | d, k :: ks =>
    if k.ends then none
    else if k.opens then level (d + 1) ks
    else if k.closes then
      if d = 0 then none else level (d - 1) ks
    else level d ks

lemma level_append (d : Nat) (v w : List Kind) :
    level d (v ++ w) = (level d v).bind (level · w) := by
  induction v generalizing d with
  | nil => rfl
  | cons k v ih =>
    rw [List.cons_append, level, level, ih, ih, ih]
    split_ifs <;> rfl

lemma level_add {d d' : Nat} {w : List Kind} (h : level d w = some d') (e : Nat) :
    level (d + e) w = some (d' + e) := by
  induction w generalizing d with
  | nil =>
    cases h
    rfl
  | cons k w ih =>
    rw [level] at h ⊢
    split_ifs at h ⊢ with hends hopens hcloses hzero hzero'
    · rw [Nat.add_right_comm]
      exact ih h
    · omega
    · rw [show d + e - 1 = d - 1 + e by omega]
      exact ih h
    · exact ih h

lemma track_of_level {d d' n : Nat} {w : List Kind} (h : level d w = some d') :
    Nesting.track ⟨d + 1, n⟩ w = some ⟨d' + 1, n⟩ := by
  induction w generalizing d with
  | nil =>
    cases h
    rfl
  | cons k w ih =>
    rw [level] at h
    rw [Nesting.track, Nesting.next]
    split_ifs at h with hends hopens hcloses hzero
    · rw [if_neg (by simp [hends, Nesting.outermost]), if_pos hopens]
      exact ih h
    · rw [if_neg (by simp [hends, Nesting.outermost]), if_neg hopens, if_pos hcloses]
      obtain ⟨e, rfl⟩ := Nat.exists_eq_succ_of_ne_zero hzero
      exact ih h
    · rw [if_neg (by simp [hends, Nesting.outermost]), if_neg hopens, if_neg hcloses,
        if_pos (by simp)]
      exact ih h

lemma level_of_track {s t : Nesting} {w : List Kind} (h : s.track w = some t) :
    level s.depth w = some t.depth := by
  induction w generalizing s with
  | nil =>
    cases h
    rfl
  | cons k w ih =>
    rw [Nesting.track] at h
    split at h
    · cases h
    · next hfree =>
      have hdepth := ih h
      rw [Nesting.next] at hdepth
      rw [level]
      have hends : ¬ k.ends = true := by simp_all
      have hopen : k.closes = true → s.depth ≠ 0 := by simp_all
      rw [if_neg hends]
      split_ifs at hdepth ⊢ with hopens hcloses hzero <;> first | exact hdepth | simp_all

/-! ### Balanced and unbroken texts -/

/-- All brackets of the text are opened and closed in it, and no statement ends in it. -/
def Balanced (w : List Kind) : Prop :=
  ∀ d, level d w = some d

/-- A text as an expression is: balanced, with no token outermost that divides expressions, and with
no colon at its end. -/
structure Unbroken (w : List Kind) : Prop where
  track : ∀ n, Nesting.track ⟨0, n⟩ w = some ⟨0, n⟩
  last : w.getLast? ≠ some (.mark ":")

/-- A text that may stand among the parameters of a function without a name. -/
def Enclosed (w : List Kind) : Prop :=
  ∀ n, Nesting.track ⟨0, n + 1⟩ w = some ⟨0, n + 1⟩

/-- The end of a text in brackets: a balanced text and a closing bracket. -/
def Closing (w : List Kind) : Prop :=
  ∃ v k, w = v ++ [k] ∧ Balanced v ∧ k.closes = true

open Reader in
instance : IsLanguage Balanced Kind.inner where
  nil := fun _ => rfl
  singleton h d := by
    simp only [Kind.inner, Bool.and_eq_true, Bool.not_eq_true'] at h
    simp [level, h]
  append hv hw d := by rw [level_append, hv d]; exact hw d

lemma next_of_even {k : Kind} (h : k.even = true) (n : Nat) :
    k.ends = false ∧ k.closes = false ∧ (Nesting.mk 0 n).next k = ⟨0, n⟩ := by
  simp only [Kind.even, Kind.inner, Bool.and_eq_true, Bool.not_eq_true', decide_eq_true_eq] at h
  obtain ⟨⟨⟨⟨hopens, hcloses⟩, hends⟩, hlambda⟩, hcolon⟩ := h
  exact ⟨hends, hcloses, by simp [Nesting.next, hopens, hcloses, hlambda, hcolon]⟩

lemma getLast?_append_ne {v w : List Kind} {k : Kind} (hv : v.getLast? ≠ some k)
    (hw : w.getLast? ≠ some k) : (v ++ w).getLast? ≠ some k := by
  rw [List.getLast?_append]
  cases h : w.getLast? with
  | none => simpa using hv
  | some l => simpa [h] using hw

open Reader in
instance : IsLanguage Unbroken Kind.plain where
  nil := ⟨fun _ => rfl, by simp⟩
  singleton {k} h := by
    simp only [Kind.plain, Bool.and_eq_true, Bool.not_eq_true'] at h
    refine ⟨fun n => ?_, ?_⟩
    · obtain ⟨hends, hcloses, hnext⟩ := next_of_even h.1 n
      simp [Nesting.track, hends, hcloses, h.2, hnext]
    · rintro ⟨rfl⟩
      exact absurd h.1 (by decide)
  append hv hw :=
    ⟨fun n => by rw [Nesting.track_append, hv.track n]; exact hw.track n,
      getLast?_append_ne hv.last hw.last⟩

open Reader in
instance : IsLanguage Enclosed Kind.even where
  nil := fun _ => rfl
  singleton h n := by
    obtain ⟨hends, hcloses, hnext⟩ := next_of_even h (n + 1)
    simp [Nesting.track, hends, hcloses, hnext, Nesting.outermost]
  append hv hw n := by rw [Nesting.track_append, hv n]; exact hw n

lemma Unbroken.balanced {w : List Kind} (h : Unbroken w) : Balanced w := by
  intro d
  have hlevel := level_add (level_of_track (h.track 0)) d
  rwa [Nat.zero_add] at hlevel

lemma Unbroken.head_not_divides {k : Kind} {w : List Kind} (h : Unbroken (k :: w)) :
    k.divides = false := by
  by_contra hk
  have htrack := h.track 0
  simp [Nesting.track, Nesting.outermost, hk] at htrack

lemma Unbroken.enclosed {w : List Kind} (h : Unbroken w) : Enclosed w :=
  fun n => h.track (n + 1)

lemma Closing.append {v w : List Kind} (hv : Balanced v) (hw : Closing w) : Closing (v ++ w) := by
  obtain ⟨u, k, rfl, hu, hk⟩ := hw
  exact ⟨v ++ u, k, by rw [List.append_assoc], Reader.IsLanguage.append hv hu, hk⟩

lemma closing_singleton {k : Kind} (hk : k.closes = true) : Closing [k] :=
  ⟨[], k, rfl, Reader.IsLanguage.nil, hk⟩

lemma Closing.unbroken {k : Kind} {w : List Kind} (hk : k.opens = true) (hw : Closing w) :
    Unbroken (k :: w) := by
  obtain ⟨v, l, rfl, hv, hl⟩ := hw
  obtain ⟨hcloses, hends, hdivides⟩ := Kind.of_opens hk
  obtain ⟨hopens, hends'⟩ := Kind.of_closes hl
  refine ⟨fun n => ?_, ?_⟩
  · have hopen : Nesting.track ⟨0, n⟩ (k :: (v ++ [l])) = Nesting.track ⟨0 + 1, n⟩ (v ++ [l]) := by
      simp [Nesting.track, Nesting.next, hk, hcloses, hends, hdivides]
    rw [hopen, Nesting.track_append, track_of_level (hv 0)]
    simp [Nesting.track, Nesting.next, hl, hopens, hends', Nesting.outermost]
  · rw [← List.cons_append, List.getLast?_concat]
    rintro ⟨rfl⟩
    exact absurd hl (by decide)

lemma Enclosed.unbroken {w v : List Kind} (h : Enclosed w) (hv : Unbroken v) (hne : v ≠ []) :
    Unbroken (.keyword "lambda" :: (w ++ .mark ":" :: v)) := by
  refine ⟨fun n => ?_, ?_⟩
  · have hopen : Nesting.track ⟨0, n⟩ (.keyword "lambda" :: (w ++ .mark ":" :: v)) =
        Nesting.track ⟨0, n + 1⟩ (w ++ .mark ":" :: v) := by
      simp [Nesting.track, Nesting.next, Kind.opens, Kind.closes, Kind.ends, Kind.divides]
    have hcolon : Nesting.track ⟨0, n + 1⟩ (.mark ":" :: v) = Nesting.track ⟨0, n⟩ v := by
      simp [Nesting.track, Nesting.next, Nesting.outermost, Kind.opens, Kind.closes, Kind.ends]
    rw [hopen, Nesting.track_append, h n, Option.bind_some, hcolon, hv.track n]
  · rw [← List.cons_append, List.getLast?_append_of_ne_nil _ (by simp)]
    obtain ⟨k, v, rfl⟩ := List.exists_cons_of_ne_nil hne
    rw [List.getLast?_cons_cons]
    exact hv.last

lemma not_ends_of_level {d d' : Nat} {w : List Kind} (h : level d w = some d') :
    ∀ k ∈ w, k.ends = false := by
  induction w generalizing d with
  | nil => simp
  | cons k w ih =>
    rw [level] at h
    split_ifs at h with hends hopens hcloses hzero
    · exact List.forall_mem_cons.mpr ⟨by simpa using hends, ih h⟩
    · exact List.forall_mem_cons.mpr ⟨by simpa using hends, ih h⟩
    · exact List.forall_mem_cons.mpr ⟨by simpa using hends, ih h⟩

lemma Balanced.not_ends {w : List Kind} (h : Balanced w) : ∀ k ∈ w, k.ends = false :=
  not_ends_of_level (h 0)

open Reader in
lemma Balanced.free {w : List Kind} (h : Balanced w) : Free Kind.stays w := by
  intro k hk
  simp [Kind.stays, h.not_ends k hk]

/-! ### Texts of statements -/

/-- A text as a statement without a block is that imports nothing: no statement ends in it, and it
has no colon at its end. -/
structure Settled (w : List Kind) : Prop where
  free : Reader.Free Kind.stays w
  last : w.getLast? ≠ some (.mark ":")

/-- The tokens that may stand anywhere in such a statement. -/
def Kind.settles (k : Kind) : Bool :=
  k.stays && k ≠ .mark ":"

open Reader in
instance : IsLanguage Settled Kind.settles where
  nil := ⟨IsLanguage.nil, by simp⟩
  singleton {k} h := by
    simp only [Kind.settles, Bool.and_eq_true, decide_eq_true_eq] at h
    exact ⟨IsLanguage.singleton h.1, by simpa using h.2⟩
  append hv hw := ⟨IsLanguage.append hv.free hw.free, getLast?_append_ne hv.last hw.last⟩

namespace Settled

open Reader IsLanguage

variable {k : Kind} {v w : List Kind}

lemma behind (hk : k.stays = true) (hw : Settled w) (hne : w ≠ []) : Settled (k :: w) := by
  refine ⟨cons hk hw.free, ?_⟩
  obtain ⟨l, w, rfl⟩ := List.exists_cons_of_ne_nil hne
  rw [List.getLast?_cons_cons]
  exact hw.last

lemma within {α : Type} {p : Reader α} (h : Within Settled p) : Within (Free Kind.stays) p :=
  h.mono fun _ _ hw => hw.free

end Settled

lemma Unbroken.settled {w : List Kind} (h : Unbroken w) : Settled w :=
  ⟨h.balanced.free, h.last⟩

end ImportFence.Source
