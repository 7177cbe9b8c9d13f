import ImportFence.Toml.Quoted
import Mathlib.Tactic.Common

/-!
# Quoted text comes back

Reading a text that was written in quotes gives the text and leaves what follows. Double quotes can
show every text through escapes; single quotes show what they hold as it is, and the writer takes
them only for texts that need no escape. The forms on several lines close at three quotes with up to
two more in front, which belong to the text.
-/

namespace ImportFence.Toml.Quoted

/-! ### Escapes -/

lemma hexValue?_hexDigit : ∀ n < 16, hexValue? (hexDigit n) = some n := by decide

lemma charOfHex?_code {c : Char} (h : c.toNat < 256) :
    charOfHex? ['0', '0', hexDigit (c.toNat / 16), hexDigit (c.toNat % 16)] = some c := by
  have hhigh := hexValue?_hexDigit (c.toNat / 16) (by omega)
  have hlow := hexValue?_hexDigit (c.toNat % 16) (by omega)
  have hzero : hexValue? '0' = some 0 := by decide
  have hsum : 16 * (c.toNat / 16) + c.toNat % 16 = c.toNat := by omega
  have hvalid : c.toNat.isValidChar := c.valid
  simp [charOfHex?, hhigh, hlow, hzero, hsum, hvalid]

lemma isPlain_of_not_control {c : Char} (h : isControl c = false) (hbreak : c ≠ '\n') :
    isPlain c = true := by
  by_cases htab : c = '\t'
  · simp [isPlain, htab]
  · simp only [isControl, Bool.and_eq_false_iff] at h
    simp [htab, hbreak] at h
    simp [isPlain]
    omega

/-- The letter of an escape is none of those that announce a code point, and no blank. -/
lemma mem_of_charOfEscape? {x c : Char} (h : charOfEscape? x = some c) :
    x ∈ ['b', 't', 'n', 'f', 'r', '"', '\\'] := by
  simp only [charOfEscape?] at h
  split_ifs at h <;> simp_all

lemma escape_cases (c : Char) :
    (∃ x, charOfEscape? x = some c ∧ escape c = ['\\', x]) ∨
    (c.toNat < 256 ∧
      escape c = ['\\', 'u', '0', '0', hexDigit (c.toNat / 16), hexDigit (c.toNat % 16)]) ∨
    (isControl c = false ∧ c ≠ '\\' ∧ c ≠ '\t' ∧ escape c = [c]) := by
  by_cases hslash : c = '\\'
  · exact Or.inl ⟨'\\', by subst hslash; decide⟩
  by_cases hback : c = '\x08'
  · exact Or.inl ⟨'b', by subst hback; decide⟩
  by_cases htab : c = '\t'
  · exact Or.inl ⟨'t', by subst htab; decide⟩
  by_cases hfeed : c = '\x0c'
  · exact Or.inl ⟨'f', by subst hfeed; decide⟩
  by_cases hreturn : c = '\r'
  · exact Or.inl ⟨'r', by subst hreturn; decide⟩
  have hescape : escape c = if isControl c then
      ['\\', 'u', '0', '0', hexDigit (c.toNat / 16), hexDigit (c.toNat % 16)] else [c] := by
    simp [escape, hslash, hback, htab, hfeed, hreturn]
  cases hcontrol : isControl c with
  | true =>
    refine Or.inr (Or.inl ⟨?_, by rw [hescape, hcontrol]; rfl⟩)
    simp [isControl] at hcontrol
    omega
  | false => exact Or.inr (Or.inr ⟨rfl, hslash, htab, by rw [hescape, hcontrol]; rfl⟩)

/-! ### One line, double quotes -/

lemma readBasic_letter {x c : Char} (h : charOfEscape? x = some c) (rest : List Char) :
    readBasic ('\\' :: x :: rest) = (readBasic rest).map (withChar c) := by
  have hx := mem_of_charOfEscape? h
  rw [readBasic]
  · rw [h]
    cases readBasic rest <;> rfl
  · rintro a b c d rest rfl
    simp at hx
  · rintro a b c d e f g h rest rfl
    simp at hx

lemma readBasic_code {c : Char} (h : c.toNat < 256) (rest : List Char) :
    readBasic ('\\' :: 'u' :: '0' :: '0' :: hexDigit (c.toNat / 16) ::
      hexDigit (c.toNat % 16) :: rest) = (readBasic rest).map (withChar c) := by
  change ((charOfHex? _).bind fun x => (readBasic rest).bind fun r => some (withChar x r)) = _
  rw [charOfHex?_code h]
  cases readBasic rest <;> rfl

lemma readBasic_plain {c : Char} (h : isPlain c = true) (hquote : c ≠ '"') (hslash : c ≠ '\\')
    (rest : List Char) : readBasic (c :: rest) = (readBasic rest).map (withChar c) := by
  rw [readBasic] <;> simp_all

lemma readBasic_escapeBasic (c : Char) (rest : List Char) :
    readBasic (escapeBasic c ++ rest) = (readBasic rest).map (withChar c) := by
  rw [escapeBasic]
  split_ifs with hquote hbreak
  · subst hquote
    exact readBasic_letter (by decide) rest
  · subst hbreak
    exact readBasic_letter (by decide) rest
  · obtain ⟨x, hx, hescape⟩ | ⟨hcode, hescape⟩ | ⟨hcontrol, hslash, -, hescape⟩ := escape_cases c
    · rw [hescape]
      exact readBasic_letter hx rest
    · rw [hescape]
      exact readBasic_code hcode rest
    · rw [hescape]
      exact readBasic_plain (isPlain_of_not_control hcontrol hbreak) hquote hslash rest

lemma readBasic_flatMap (cs rest : List Char) :
    readBasic (cs.flatMap escapeBasic ++ '"' :: rest) = some (cs, rest) := by
  induction cs with
  | nil => rfl
  | cons c cs ih =>
    rw [List.flatMap_cons, List.append_assoc, readBasic_escapeBasic, ih]
    rfl

/-! ### One line, single quotes -/

lemma readLiteral_append {cs : List Char} (hplain : ∀ c ∈ cs, isPlain c = true)
    (hquote : '\'' ∉ cs) (rest : List Char) :
    readLiteral (cs ++ '\'' :: rest) = some (cs, rest) := by
  induction cs with
  | nil => rfl
  | cons c cs ih =>
    obtain ⟨hc, hcs⟩ := List.forall_mem_cons.mp hplain
    obtain ⟨hne, hnot⟩ := List.ne_and_not_mem_of_not_mem_cons hquote
    rw [List.cons_append, readLiteral, if_pos hc, ih hcs hnot]
    · rfl
    · exact fun h => hne h.symm

/-! ### Several lines

Both readers look five quotes ahead, so the quotes just passed stay in front of the text in the
inductions: the invariant is about the whole run. -/

/-- The text does not go on with a quote. -/
def EndsRun (q : Char) (rest : List Char) : Prop :=
  rest.head? ≠ some q

lemma EndsRun.not_pair {q : Char} {rest : List Char} (h : EndsRun q rest) : ¬ [q, q] <+: rest := by
  rintro ⟨tail, rfl⟩
  exact h rfl

lemma EndsRun.not_pair_cons {q : Char} {rest : List Char} (h : EndsRun q rest) :
    ¬ [q, q] <+: q :: rest := by
  rintro ⟨tail, heq⟩
  obtain rfl : q :: tail = rest := (List.cons.inj heq).2
  exact h rfl

/-- A reader that passes up to two quotes in a row and closes at three, with up to two in front. -/
structure ClosesAtThree (q : Char) (read : List Char → Option (List Char × List Char)) : Prop where
  quote : ∀ rest, ¬ [q, q] <+: rest → read (q :: rest) = (read rest).map (withChar q)
  close : ∀ run ≤ 2, ∀ rest, EndsRun q rest →
    read (List.replicate run q ++ q :: q :: q :: rest) = some (List.replicate run q, rest)

lemma ClosesAtThree.pass {q : Char} {read : List Char → Option (List Char × List Char)}
    (h : ClosesAtThree q read) {run : Nat} (hrun : run ≤ 2) {rest : List Char}
    (hrest : EndsRun q rest) :
    read (List.replicate run q ++ rest) =
      (read rest).map fun r => (List.replicate run q ++ r.1, r.2) := by
  obtain rfl | rfl | rfl : run = 0 ∨ run = 1 ∨ run = 2 := by omega
  · change read rest = (read rest).map id
    rw [Option.map_id, id]
  · rw [List.replicate_one, List.singleton_append, h.quote rest hrest.not_pair]
    rfl
  · change read (q :: q :: rest) = _
    rw [h.quote _ hrest.not_pair_cons, h.quote _ hrest.not_pair, Option.map_map]
    rfl

lemma readMultiLiteral_char {c : Char} (h : isPlain c = true) {rest : List Char}
    (hquotes : c = '\'' → ¬ ['\'', '\''] <+: rest) :
    readMultiLiteral (c :: rest) = (readMultiLiteral rest).map (withChar c) := by
  have hbreak : c ≠ '\n' ∧ c ≠ '\r' := by
    constructor <;> (rintro rfl; simp [isPlain] at h)
  by_cases hquote : c = '\''
  · subst hquote
    have hnot : ∀ tail, rest ≠ '\'' :: '\'' :: tail := by
      rintro tail rfl
      exact hquotes rfl ⟨tail, rfl⟩
    rw [readMultiLiteral] <;> simp [hnot, isPlain]
  · rw [readMultiLiteral] <;> simp [h, hquote, hbreak]

lemma closesAtThree_readMultiLiteral : ClosesAtThree '\'' readMultiLiteral := by
  constructor
  · exact fun rest hrest => readMultiLiteral_char (by decide) fun _ => hrest
  · intro run hrun rest hrest
    have hnot : ∀ tail, rest ≠ '\'' :: tail := by
      rintro tail rfl
      exact hrest rfl
    obtain rfl | rfl | rfl : run = 0 ∨ run = 1 ∨ run = 2 := by omega
    · change readMultiLiteral ('\'' :: '\'' :: '\'' :: rest) = _
      rw [readMultiLiteral] <;> simp [hnot]
    · change readMultiLiteral ('\'' :: '\'' :: '\'' :: '\'' :: rest) = _
      rw [readMultiLiteral] <;> simp [hnot]
    · rfl

lemma readMultiBasic_char {c : Char} (h : isPlain c = true) (hslash : c ≠ '\\')
    {rest : List Char} (hquotes : c = '"' → ¬ ['"', '"'] <+: rest) :
    readMultiBasic false (c :: rest) = (readMultiBasic false rest).map (withChar c) := by
  have hbreak : c ≠ '\n' ∧ c ≠ '\r' := by
    constructor <;> (rintro rfl; simp [isPlain] at h)
  by_cases hquote : c = '"'
  · subst hquote
    have hnot : ∀ tail, rest ≠ '"' :: '"' :: tail := by
      rintro tail rfl
      exact hquotes rfl ⟨tail, rfl⟩
    rw [readMultiBasic] <;> simp [hnot, isPlain]
  · rw [readMultiBasic] <;> simp [h, hquote, hslash, hbreak]

lemma closesAtThree_readMultiBasic : ClosesAtThree '"' (readMultiBasic false) := by
  constructor
  · exact fun rest hrest => readMultiBasic_char (by decide) (by decide) fun _ => hrest
  · intro run hrun rest hrest
    have hnot : ∀ tail, rest ≠ '"' :: tail := by
      rintro tail rfl
      exact hrest rfl
    obtain rfl | rfl | rfl : run = 0 ∨ run = 1 ∨ run = 2 := by omega
    · change readMultiBasic false ('"' :: '"' :: '"' :: rest) = _
      rw [readMultiBasic] <;> simp [hnot]
    · change readMultiBasic false ('"' :: '"' :: '"' :: '"' :: rest) = _
      rw [readMultiBasic] <;> simp [hnot]
    · rfl

lemma readMultiBasic_letter {x c : Char} (h : charOfEscape? x = some c) (rest : List Char) :
    readMultiBasic false ('\\' :: x :: rest) = (readMultiBasic false rest).map (withChar c) := by
  have hx := mem_of_charOfEscape? h
  have hahead : lineBreakAhead (x :: rest) = false := by
    simp only [List.mem_cons, List.not_mem_nil, or_false] at hx
    rcases hx with rfl | rfl | rfl | rfl | rfl | rfl | rfl <;> rfl
  rw [readMultiBasic, hahead]
  · rw [if_neg Bool.false_ne_true, h]
    cases readMultiBasic false rest <;> rfl
  · rintro a b c d rest rfl
    simp at hx
  · rintro a b c d e f g h rest rfl
    simp at hx

lemma readMultiBasic_code {c : Char} (h : c.toNat < 256) (rest : List Char) :
    readMultiBasic false ('\\' :: 'u' :: '0' :: '0' :: hexDigit (c.toNat / 16) ::
      hexDigit (c.toNat % 16) :: rest) = (readMultiBasic false rest).map (withChar c) := by
  change ((charOfHex? _).bind fun x =>
    (readMultiBasic false rest).bind fun r => some (withChar x r)) = _
  rw [charOfHex?_code h]
  cases readMultiBasic false rest <;> rfl

lemma readMultiBasic_escape {c : Char} (hquote : c ≠ '"') (rest : List Char) :
    readMultiBasic false (escape c ++ rest) = (readMultiBasic false rest).map (withChar c) := by
  obtain ⟨x, hx, hescape⟩ | ⟨hcode, hescape⟩ | ⟨hcontrol, hslash, -, hescape⟩ := escape_cases c
  · rw [hescape]
    exact readMultiBasic_letter hx rest
  · rw [hescape]
    exact readMultiBasic_code hcode rest
  · rw [hescape]
    by_cases hbreak : c = '\n'
    · subst hbreak
      rfl
    · exact readMultiBasic_char (isPlain_of_not_control hcontrol hbreak) hslash
        fun heq => absurd heq hquote

lemma escape_endsRun {c : Char} (hquote : c ≠ '"') (rest : List Char) :
    EndsRun '"' (escape c ++ rest) := by
  obtain ⟨x, -, hescape⟩ | ⟨-, hescape⟩ | ⟨-, -, -, hescape⟩ := escape_cases c <;>
    simp [EndsRun, hescape, hquote]

lemma escapeBasic_endsRun (c : Char) (rest : List Char) : EndsRun '"' (escapeBasic c ++ rest) := by
  rw [escapeBasic]
  split_ifs with hquote hbreak
  · simp [EndsRun]
  · simp [EndsRun]
  · exact escape_endsRun hquote rest

lemma escapeMulti_cons (run : Nat) (c : Char) (cs : List Char) :
    escapeMulti run (c :: cs) =
      if c = '"' then
        if run = 2 then '\\' :: '"' :: escapeMulti 0 cs else '"' :: escapeMulti (run + 1) cs
      else escape c ++ escapeMulti 0 cs := rfl

lemma longestRun_cons (q : Char) (run : Nat) (c : Char) (cs : List Char) :
    longestRun q run (c :: cs) =
      if c = q then longestRun q (run + 1) cs else max run (longestRun q 0 cs) := rfl

lemma replicate_append_cons {q : Char} (run : Nat) (rest : List Char) :
    List.replicate run q ++ q :: rest = List.replicate (run + 1) q ++ rest := by
  rw [List.replicate_succ', List.append_assoc, List.singleton_append]

lemma readMultiBasic_escapeMulti {rest : List Char} (hrest : EndsRun '"' rest) (cs : List Char)
    (run : Nat) (hrun : run ≤ 2) :
    readMultiBasic false (List.replicate run '"' ++
      (escapeMulti run cs ++ '"' :: '"' :: '"' :: rest)) =
        some (List.replicate run '"' ++ cs, rest) := by
  induction cs generalizing run with
  | nil =>
    rw [List.append_nil]
    exact closesAtThree_readMultiBasic.close run hrun rest hrest
  | cons c cs ih =>
    rw [escapeMulti_cons]
    split_ifs with hquote hthird
    · subst hquote
      subst hthird
      have hpass : EndsRun '"' ('\\' :: '"' :: (escapeMulti 0 cs ++ '"' :: '"' :: '"' :: rest)) := by
        simp [EndsRun]
      rw [List.cons_append, List.cons_append, closesAtThree_readMultiBasic.pass hrun hpass,
        readMultiBasic_letter (by decide : charOfEscape? '"' = some '"')]
      have hzero := ih 0 (by omega)
      rw [List.replicate_zero, List.nil_append] at hzero
      rw [hzero]
      rfl
    · subst hquote
      rw [List.cons_append, replicate_append_cons, ih (run + 1) (by omega), replicate_append_cons]
    · rw [List.append_assoc, closesAtThree_readMultiBasic.pass hrun (escape_endsRun hquote _),
        readMultiBasic_escape hquote]
      have hzero := ih 0 (by omega)
      rw [List.replicate_zero, List.nil_append] at hzero
      rw [hzero]
      rfl

lemma readMultiLiteral_append {rest : List Char} (hrest : EndsRun '\'' rest) {cs : List Char}
    (hcontrol : ∀ c ∈ cs, isControl c = false) (run : Nat)
    (hrun : longestRun '\'' run cs < 3) :
    readMultiLiteral (List.replicate run '\'' ++ (cs ++ '\'' :: '\'' :: '\'' :: rest)) =
      some (List.replicate run '\'' ++ cs, rest) := by
  induction cs generalizing run with
  | nil =>
    rw [List.nil_append, List.append_nil]
    exact closesAtThree_readMultiLiteral.close run (Nat.le_of_lt_succ hrun) rest hrest
  | cons c cs ih =>
    obtain ⟨hc, hcs⟩ := List.forall_mem_cons.mp hcontrol
    rw [longestRun_cons] at hrun
    split_ifs at hrun with hquote
    · subst hquote
      rw [List.cons_append, replicate_append_cons, ih hcs (run + 1) hrun, replicate_append_cons]
    · have hpass : EndsRun '\'' (c :: (cs ++ '\'' :: '\'' :: '\'' :: rest)) := by
        simpa [EndsRun] using hquote
      have hstep : readMultiLiteral (c :: (cs ++ '\'' :: '\'' :: '\'' :: rest)) =
          (readMultiLiteral (cs ++ '\'' :: '\'' :: '\'' :: rest)).map (withChar c) := by
        by_cases hbreak : c = '\n'
        · subst hbreak
          rfl
        · exact readMultiLiteral_char (isPlain_of_not_control hc hbreak)
            fun heq => absurd heq hquote
      have hzero := ih hcs 0 (by omega)
      rw [List.replicate_zero, List.nil_append] at hzero
      rw [List.cons_append, closesAtThree_readMultiLiteral.pass (by omega) hpass, hstep, hzero]
      rfl

/-! ### All forms -/

/-- A form can show a text. Double quotes show any text, since they have escapes. -/
def Fits (cs : List Char) : Form → Prop
  | .basic | .multiBasic => True
  | .literal => (∀ c ∈ cs, isControl c = false) ∧ '\'' ∉ cs ∧ '\n' ∉ cs
  | .multiLiteral => (∀ c ∈ cs, isControl c = false) ∧ longestRun '\'' 0 cs < 3

lemma fits_formOf (cs : List Char) : Fits cs (formOf cs) := by
  rw [formOf]
  split_ifs with hbasic hliteral hmulti hmultiLiteral hbreak
  · trivial
  · simpa [Fits, and_assoc] using hliteral
  · trivial
  · simpa [Fits] using hmultiLiteral
  · trivial
  · trivial

/-- The line break behind the opening quotes is left out by the reader, and no other one is. -/
lemma dropLineBreak_opening {cs body : List Char}
    (hhead : '\n' ∉ cs → body.head? ≠ some '\n' ∧ body.head? ≠ some '\r') :
    dropLineBreak (opening cs ++ body) = body := by
  rw [opening]
  by_cases hbreak : '\n' ∈ cs
  · simp [hbreak, dropLineBreak]
  · obtain ⟨hnew, hreturn⟩ := hhead hbreak
    simp only [List.contains_eq_mem, hbreak, decide_false, Bool.false_eq_true, if_false,
      List.nil_append]
    cases body with
    | nil => rfl
    | cons c body =>
      rw [dropLineBreak] <;> simp_all

lemma head?_escapeMulti {cs : List Char} (hbreak : '\n' ∉ cs) (rest : List Char) :
    (escapeMulti 0 cs ++ '"' :: rest).head? ≠ some '\n' ∧
      (escapeMulti 0 cs ++ '"' :: rest).head? ≠ some '\r' := by
  cases cs with
  | nil =>
    change some '"' ≠ some '\n' ∧ some '"' ≠ some '\r'
    decide
  | cons c cs =>
    have hc : c ≠ '\n' := by
      rintro rfl
      simp at hbreak
    rw [escapeMulti_cons]
    split_ifs with hquote
    · simp
    · simp
    · obtain ⟨x, -, hescape⟩ | ⟨-, hescape⟩ | ⟨hcontrol, -, -, hescape⟩ := escape_cases c
      · simp [hescape]
      · simp [hescape]
      · have hreturn : c ≠ '\r' := by
          rintro rfl
          simp [isControl] at hcontrol
        simp [hescape, hc, hreturn]

lemma read_basic {t : List Char} (h : ¬ ['"', '"'] <+: t) : read ('"' :: t) = readBasic t := by
  rw [read]
  rintro rest rfl
  exact h ⟨rest, rfl⟩

lemma read_literal {t : List Char} (h : ¬ ['\'', '\''] <+: t) :
    read ('\'' :: t) = readLiteral t := by
  rw [read]
  rintro rest rfl
  exact h ⟨rest, rfl⟩

/-- A text comes back from each form that can show it, whatever follows, unless another quote
does. -/
lemma read_writeIn {form : Form} {cs rest : List Char} (hfits : Fits cs form)
    (hdouble : EndsRun '"' rest) (hsingle : EndsRun '\'' rest) :
    read (writeIn form cs ++ rest) = some (cs, rest) := by
  cases form with
  | basic =>
    have hopen : ¬ ['"', '"'] <+: cs.flatMap escapeBasic ++ '"' :: rest := by
      cases cs with
      | nil => exact hdouble.not_pair_cons
      | cons c cs =>
        rw [List.flatMap_cons, List.append_assoc]
        exact (escapeBasic_endsRun c _).not_pair
    rw [writeIn, List.cons_append, List.append_assoc, List.singleton_append, read_basic hopen]
    exact readBasic_flatMap cs rest
  | literal =>
    obtain ⟨hcontrol, hquote, hbreak⟩ := hfits
    have hplain : ∀ c ∈ cs, isPlain c = true := by
      intro c hc
      exact isPlain_of_not_control (hcontrol c hc) fun h => hbreak (h ▸ hc)
    have hopen : ¬ ['\'', '\''] <+: cs ++ '\'' :: rest := by
      cases cs with
      | nil => exact hsingle.not_pair_cons
      | cons c cs =>
        refine EndsRun.not_pair ?_
        rintro ⟨⟩
        exact hquote List.mem_cons_self
    rw [writeIn, List.cons_append, List.append_assoc, List.singleton_append, read_literal hopen]
    exact readLiteral_append hplain hquote rest
  | multiBasic =>
    have hbody : dropLineBreak (opening cs ++ (escapeMulti 0 cs ++ '"' :: '"' :: '"' :: rest)) =
        escapeMulti 0 cs ++ '"' :: '"' :: '"' :: rest :=
      dropLineBreak_opening fun h => head?_escapeMulti h _
    simp only [writeIn, List.cons_append, List.append_assoc, List.nil_append, read]
    rw [hbody]
    exact readMultiBasic_escapeMulti hdouble cs 0 (by omega)
  | multiLiteral =>
    obtain ⟨hcontrol, hrun⟩ := hfits
    have hhead : '\n' ∉ cs → (cs ++ '\'' :: '\'' :: '\'' :: rest).head? ≠ some '\n' ∧
        (cs ++ '\'' :: '\'' :: '\'' :: rest).head? ≠ some '\r' := by
      intro hbreak
      cases cs with
      | nil => simp
      | cons c cs =>
        have hreturn : c ≠ '\r' := by
          rintro rfl
          simpa [isControl] using hcontrol _ List.mem_cons_self
        have hnew : c ≠ '\n' := by
          rintro rfl
          exact hbreak List.mem_cons_self
        simp [hreturn, hnew]
    simp only [writeIn, List.cons_append, List.append_assoc, List.nil_append, read]
    rw [dropLineBreak_opening hhead]
    exact readMultiLiteral_append hsingle hcontrol 0 hrun

/-- Writing a text in quotes loses nothing. -/
theorem read_write (cs : List Char) {rest : List Char} (hdouble : EndsRun '"' rest)
    (hsingle : EndsRun '\'' rest) : read (write cs ++ rest) = some (cs, rest) :=
  read_writeIn (fits_formOf cs) hdouble hsingle

end ImportFence.Toml.Quoted
