import Mathlib.Data.List.Basic
import Mathlib.Tactic.Common

/-!
# The words of a shell command

A shell reads a line character by character. Blanks separate words, quotes and backslashes are taken
off, and a `#` where a word could start begins a comment. Here a line has words only if it is one
simple command that is written out: an operator, an open quote, or a character in whose place the
shell would put a text of its own leave it without.

Of every character at most one gets into a word, and outside of quotes only the literal ones do. So
text that is read as one word of its own length is that word.
-/

namespace ImportFence.Shell

/-- Characters between words. -/
def isBlank (c : Char) : Bool :=
  " \t".toList.contains c

/-- Characters that end a command, join it with another or redirect it. -/
def isOperator (c : Char) : Bool :=
  "|&;<>()\n".toList.contains c

/-- Characters that start the value of a variable or a command, or a pattern of file names. -/
def isExpansion (c : Char) : Bool :=
  "$`*?[".toList.contains c

/-- Characters that keep others from their meaning. -/
def isQuote (c : Char) : Bool :=
  "\\'\"".toList.contains c

/-- Characters with a meaning where a word starts: that of a comment or of a home directory. -/
def isLeading (c : Char) : Bool :=
  "#~".toList.contains c

/-- Characters that stand for themselves, at least within a word. -/
def isLiteral (c : Char) : Bool :=
  !(isBlank c || isOperator c || isExpansion c || isQuote c)

/-- What the characters before say about the next one. -/
inductive Quoting where
  | bare
  | escaped
  | single
  | double
  | doubleEscaped
  | comment
  deriving DecidableEq

/-- What a quote says about the characters behind it. -/
def Quoting.behind (c : Char) : Quoting :=
  if c = '\\' then .escaped else if c = '\'' then .single else .double

/-- The state between two characters: the words so far, and the one that has started. -/
structure Reading where
  quoting : Quoting
  words : List (List Char)
  word? : Option (List Char)
  deriving DecidableEq

namespace Reading

def start : Reading := ⟨.bare, [], none⟩

/-- Another character of the word, which it may start. -/
def push (r : Reading) (c : Char) : Reading :=
  { r with word? := some (r.word?.getD [] ++ [c]) }

/-- The beginning of a quotation, which may start a word. -/
def quote (r : Reading) (q : Quoting) : Reading :=
  { r with quoting := q, word? := some (r.word?.getD []) }

def endWord (r : Reading) : Reading :=
  { r with words := r.words ++ r.word?.toList, word? := none }

def stepBare (r : Reading) (c : Char) : Option Reading :=
  if isBlank c then some r.endWord
  else if isOperator c || isExpansion c then none
  else if isQuote c then some (r.quote (Quoting.behind c))
  else if r.word?.isNone && isLeading c then
    if c = '#' then some { r with quoting := .comment } else none
  else some (r.push c)

def step (r : Reading) (c : Char) : Option Reading :=
  match r.quoting with
  | .bare => r.stepBare c
  | .escaped => some { r.push c with quoting := .bare }
  | .single => if c = '\'' then some { r with quoting := .bare } else some (r.push c)
  | .double =>
    if c = '"' then some { r with quoting := .bare }
    else if c = '$' || c = '`' then none
    else if c = '\\' then some { r with quoting := .doubleEscaped }
    else some (r.push c)
  | .doubleEscaped =>
    -- within double quotes the backslash itself stays, except before these
    if "$`\"\\".toList.contains c then some { r.push c with quoting := .double }
    else some { (r.push '\\').push c with quoting := .double }
  | .comment => some r

def finish? (r : Reading) : Option (List (List Char)) :=
  if r.quoting = .bare ∨ r.quoting = .comment then some r.endWord.words else none

end Reading

/-- The words of a line, if it is one simple command that is written out. -/
def words? (line : List Char) : Option (List (List Char)) :=
  (line.foldlM Reading.step Reading.start).bind Reading.finish?

example : words? "check 'my project' \"a\\$\"b\\ c # all".toList =
    some ["check".toList, "my project".toList, "a$b c".toList] := by decide

/-- A text that is one word, or none, and stands for itself. -/
structure Literal (t : List Char) : Prop where
  literal : ∀ c ∈ t, isLiteral c = true
  leading : t.head?.any isLeading = false

instance (t : List Char) : Decidable (Literal t) :=
  decidable_of_iff (t.all isLiteral = true ∧ t.head?.any isLeading = false)
    ⟨fun h => ⟨List.all_eq_true.mp h.1, h.2⟩, fun h => ⟨List.all_eq_true.mpr h.literal, h.leading⟩⟩

namespace Reading

variable {r r' : Reading} {c : Char} {cs : List Char}

/-! ### The characters that get into words -/

def size (r : Reading) : Nat :=
  r.words.flatten.length + (r.word?.getD []).length

/-- The same with a backslash that may still get there. -/
def bound (r : Reading) : Nat :=
  r.size + if r.quoting = .doubleEscaped then 1 else 0

@[simp] lemma size_push (r : Reading) (c : Char) : (r.push c).size = r.size + 1 := by
  simp only [size, push, Option.getD_some, List.length_append, List.length_singleton]
  omega

@[simp] lemma quoting_push (r : Reading) (c : Char) : (r.push c).quoting = r.quoting := rfl

@[simp] lemma size_quote (r : Reading) (q : Quoting) : (r.quote q).size = r.size := by
  simp only [size, quote, Option.getD_some]

@[simp] lemma quoting_quote (r : Reading) (q : Quoting) : (r.quote q).quoting = q := rfl

@[simp] lemma size_endWord (r : Reading) : r.endWord.size = r.size := by
  cases hword : r.word? <;> simp [size, endWord, hword]

@[simp] lemma quoting_endWord (r : Reading) : r.endWord.quoting = r.quoting := rfl

@[simp] lemma size_requote (r : Reading) (q : Quoting) : size ⟨q, r.words, r.word?⟩ = r.size := rfl

lemma behind_ne (c : Char) : Quoting.behind c ≠ .doubleEscaped := by
  rw [Quoting.behind]
  split_ifs <;> decide

lemma stepBare_cases (hbare : r.quoting = .bare) (h : r.stepBare c = some r') :
    (isLiteral c = true ∧ (r.word? = none → isLeading c = false) ∧ r' = r.push c) ∨
      r'.bound = r.bound := by
  rw [stepBare] at h
  split_ifs at h with hblank hmeaning hquote hleading hcomment
  · cases h
    exact Or.inr (by simp [bound, hbare])
  · cases h
    exact Or.inr (by simp [bound, hbare, behind_ne])
  · cases h
    exact Or.inr (by simp [bound, hbare])
  · cases h
    refine Or.inl ⟨?_, ?_, rfl⟩
    · simp_all [isLiteral]
    · intro hnone
      simpa [hnone] using hleading

lemma bound_step (h : r.step c = some r') : r'.bound ≤ r.bound + 1 := by
  cases hquoting : r.quoting with
  | bare =>
    rw [step, hquoting] at h
    rcases stepBare_cases hquoting h with ⟨-, -, rfl⟩ | hbound
    · simp [bound, hquoting]
    · omega
  | escaped =>
    rw [step, hquoting] at h
    cases h
    simp [bound, hquoting]
  | single =>
    simp only [step, hquoting] at h
    split_ifs at h <;> cases h <;> simp [bound, hquoting]
  | double =>
    simp only [step, hquoting] at h
    split_ifs at h <;> cases h <;> simp [bound, hquoting]
  | doubleEscaped =>
    -- a backslash that stays was counted when it was read
    simp only [step, hquoting] at h
    split_ifs at h <;> cases h <;> simp [bound, hquoting]
  | comment =>
    rw [step, hquoting] at h
    cases h
    exact Nat.le_succ _

lemma bound_foldlM (h : cs.foldlM step r = some r') : r'.bound ≤ r.bound + cs.length := by
  induction cs generalizing r with
  | nil =>
    cases h
    omega
  | cons c cs ih =>
    rw [List.foldlM_cons, Option.bind_eq_bind, Option.bind_eq_some_iff] at h
    obtain ⟨next, hstep, hrest⟩ := h
    have hnext := bound_step hstep
    have hrest := ih hrest
    rw [List.length_cons]
    omega

/-- If each character gets into a word, they are literal and make up one word. -/
lemma literal_of_bound (hbare : r.quoting = .bare) (h : cs.foldlM step r = some r')
    (hbound : r.bound + cs.length ≤ r'.bound) :
    (∀ c ∈ cs, isLiteral c = true) ∧ (r.word? = none → cs.head?.any isLeading = false) ∧
      r' = cs.foldl push r := by
  induction cs generalizing r with
  | nil =>
    cases h
    simp
  | cons c cs ih =>
    rw [List.foldlM_cons, Option.bind_eq_bind, Option.bind_eq_some_iff] at h
    obtain ⟨next, hstep, hrest⟩ := h
    have hlater := bound_foldlM hrest
    rw [List.length_cons] at hbound
    rw [step, hbare] at hstep
    rcases stepBare_cases hbare hstep with ⟨hc, hleading, rfl⟩ | hlost
    · have hsize : (r.push c).bound = r.bound + 1 := by
        simp [bound, hbare]
      obtain ⟨hcs, -, hr'⟩ := ih (r := r.push c) hbare hrest (by omega)
      refine ⟨List.forall_mem_cons.mpr ⟨hc, hcs⟩, ?_, hr'⟩
      simpa using hleading
    · omega

lemma foldlM_of_isLiteral (hbare : r.quoting = .bare) (hcs : ∀ c ∈ cs, isLiteral c = true)
    (hleading : r.word? = none → cs.head?.any isLeading = false) :
    cs.foldlM step r = some (cs.foldl push r) := by
  induction cs generalizing r with
  | nil => rfl
  | cons c cs ih =>
    obtain ⟨hc, hcs⟩ := List.forall_mem_cons.mp hcs
    have hstep : r.step c = some (r.push c) := by
      simp only [isLiteral, Bool.not_eq_true', Bool.or_eq_false_iff] at hc
      have hstart : (r.word?.isNone && isLeading c) = false := by
        cases hword : r.word? with
        | none => simpa using hleading hword
        | some w => rfl
      simp [step, stepBare, hbare, hc, hstart]
    rw [List.foldlM_cons, hstep]
    exact ih (r := r.push c) hbare hcs (fun hnone => nomatch hnone)

lemma foldl_push (q : Quoting) (ws : List (List Char)) (w cs : List Char) :
    cs.foldl push ⟨q, ws, some w⟩ = ⟨q, ws, some (w ++ cs)⟩ := by
  induction cs generalizing w with
  | nil => simp
  | cons c cs ih =>
    rw [List.foldl_cons, push, ih]
    simp

lemma foldl_push_of_ne_nil (q : Quoting) (ws : List (List Char)) (hcs : cs ≠ []) :
    cs.foldl push ⟨q, ws, none⟩ = ⟨q, ws, some cs⟩ := by
  obtain ⟨c, cs, rfl⟩ := List.exists_cons_of_ne_nil hcs
  exact foldl_push q ws [c] cs

lemma bound_of_finish? {ws : List (List Char)} (h : r.finish? = some ws) :
    r.bound = ws.flatten.length := by
  rw [finish?] at h
  split_ifs at h with hquoting
  cases h
  have hne : r.quoting ≠ .doubleEscaped := by
    rintro heq
    rw [heq] at hquoting
    revert hquoting
    decide
  rw [bound, if_neg hne, ← size_endWord, size]
  rfl

end Reading

/-- Behind finished words, a text is read as one further word of its own length exactly if it is
literal; the word is then the text itself. -/
lemma finish?_foldlM_iff {ws : List (List Char)} {t w : List Char} (ht : t ≠ [])
    (hw : w.length = t.length) :
    (t.foldlM Reading.step ⟨.bare, ws, none⟩).bind Reading.finish? = some (ws ++ [w]) ↔
      Literal t ∧ w = t := by
  constructor
  · intro h
    obtain ⟨r, hr, hfinish⟩ := Option.bind_eq_some_iff.mp h
    have hbound := Reading.bound_of_finish? hfinish
    have hstart : (⟨.bare, ws, none⟩ : Reading).bound = ws.flatten.length := rfl
    obtain ⟨hliteral, hleading, hpush⟩ :=
      Reading.literal_of_bound rfl hr (by simp [hbound, hstart, hw])
    refine ⟨⟨hliteral, hleading rfl⟩, ?_⟩
    rw [hpush, Reading.foldl_push_of_ne_nil _ _ ht] at hfinish
    simpa [Reading.finish?, Reading.endWord] using hfinish.symm
  · rintro ⟨⟨hliteral, hleading⟩, rfl⟩
    rw [Reading.foldlM_of_isLiteral rfl hliteral fun _ => hleading,
      Reading.foldl_push_of_ne_nil _ _ ht]
    rfl

lemma length_words?_le {line : List Char} {ws : List (List Char)} (h : words? line = some ws) :
    ws.flatten.length ≤ line.length := by
  obtain ⟨r, hr, hfinish⟩ := Option.bind_eq_some_iff.mp h
  have hbound := Reading.bound_foldlM hr
  have hstart : Reading.start.bound = 0 := rfl
  rwa [Reading.bound_of_finish? hfinish, hstart, Nat.zero_add] at hbound

end ImportFence.Shell
