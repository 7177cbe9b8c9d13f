import ImportFence.Source.Token.Scan
import ImportFence.Proofs.ModuleNames
import Mathlib.Data.List.Induction
import Mathlib.Data.List.TakeWhile

/-!
# Places of tokens and comments

The items of a source are laid along its text: each token and each comment starts where the text
before it ends and covers its own text, and later items lie behind earlier ones. So offsets, lines
and columns ascend along the tokens, and no line has two comments.
-/

namespace ImportFence.Source

namespace Position

lemma after_append (p : Position) (a b : List Char) : p.after (a ++ b) = (p.after a).after b :=
  List.foldl_append

@[simp] lemma after_nil (p : Position) : p.after [] = p := rfl

lemma after_cons (p : Position) (c : Char) (cs : List Char) :
    p.after (c :: cs) = (p.next c).after cs := rfl

@[simp] lemma offset_next (p : Position) (c : Char) : (p.next c).offset = p.offset + 1 := by
  unfold next
  split <;> rfl

@[simp] lemma offset_after (p : Position) (cs : List Char) :
    (p.after cs).offset = p.offset + cs.length := by
  induction cs generalizing p with
  | nil => rfl
  | cons c cs ih => rw [after_cons, ih, offset_next, List.length_cons]; omega

/-- The place stands before another one: on an earlier line, or to its left. -/
def Before (p q : Position) : Prop :=
  p.line < q.line ∨ p.line = q.line ∧ p.column < q.column

lemma Before.trans {p q r : Position} (hpq : p.Before q) (hqr : q.Before r) : p.Before r := by
  unfold Before at *
  omega

lemma before_next (p : Position) (c : Char) : p.Before (p.next c) := by
  have hbytes : 0 < Text.charBytes c := Char.utf8Size_pos c
  unfold Before next
  split
  · simp
  · simp; omega

lemma before_after (p : Position) {cs : List Char} (h : cs ≠ []) : p.Before (p.after cs) := by
  induction cs generalizing p with
  | nil => exact absurd rfl h
  | cons c cs ih =>
    cases cs with
    | nil => exact before_next p c
    | cons d cs => exact (before_next p c).trans (ih (p.next c) (by simp))

lemma line_after (p : Position) (cs : List Char) :
    (p.after cs).line = p.line + cs.count '\n' := by
  induction cs generalizing p with
  | nil => rfl
  | cons c cs ih =>
    rw [after_cons, ih, next, List.count_cons]
    split
    · next h => simp [h]; omega
    · next h => simp [h]

/-- What stands behind the last line break of a text. -/
def lastLine (cs : List Char) : List Char :=
  (cs.reverse.takeWhile (· ≠ '\n')).reverse

lemma lastLine_concat (cs : List Char) (c : Char) :
    lastLine (cs ++ [c]) = if c = '\n' then [] else lastLine cs ++ [c] := by
  unfold lastLine
  by_cases hc : c = '\n' <;> simp [hc]

/-- Columns count the bytes behind the last line break. -/
lemma column_after_start (cs : List Char) :
    (start.after cs).column = 1 + Text.bytesOf (lastLine cs) := by
  induction cs using List.reverseRecOn with
  | nil => rfl
  | append_singleton cs c ih =>
    rw [after_append, after_cons, after_nil, next, lastLine_concat]
    split
    · rfl
    · rw [Text.bytesOf_append, ih, Nat.add_assoc]
      rfl

end Position

/-- The characters of a token, as far as its kind tells them. -/
def Kind.Spells : Kind → List Char → Prop
  | .name word, text => text = word.toList
  | .keyword word, text => text = word.toList
  | .mark m, text => text = m.toList
  | .stringOpen, text => ∃ flags quote, text = flags ++ Quote.closing quote ∧
      (∀ c ∈ flags, isStringFlag c = true) ∧ (quote.mark = '"' ∨ quote.mark = '\'')
  | .stringText content, text => text = content.toList
  | .stringClose, text => ∃ quote, text = Quote.closing quote
  | .fieldOpen, text => text = ['{']
  | .fieldClose, text => text = ['}']
  | _, _ => True

/-- A token stands in a text that starts at a place, as it is spelled. -/
def Token.StandsIn (t : Token) (p : Position) (cs : List Char) : Prop :=
  ∃ before text after, cs = before ++ (text ++ after) ∧ t.start = p.after before ∧
    t.stop = t.start.after text ∧ t.kind.Spells text

def tokens (items : List Item) : List Token :=
  items.filterMap fun
    | .token t => some t
    | _ => none

/-- Items that follow one another along a text that starts at a place. A comment ends its line,
unless it is the last one. -/
inductive Laid : Position → List Char → List Item → Prop
  | done (p cs) : Laid p cs []
  | skip (p gap cs items) : Laid (p.after gap) cs items → Laid p (gap ++ cs) items
  | token (p text cs items kind) : kind.Spells text → Laid (p.after text) cs items →
      Laid p (text ++ cs) (.token ⟨kind, p, p.after text⟩ :: items)
  | comment (p text cs items) : text.head? = some '#' → '\n' ∉ text →
      (cs.head? = some '\n' ∨ comments items = []) → Laid (p.after text) cs items →
      Laid p (text ++ cs) (.comment ⟨text, p⟩ :: items)
  | lineBreak (p cs indent items) : Laid p cs items → Laid p cs (.lineBreak indent :: items)

namespace Laid

lemma token_covers {p : Position} {cs : List Char} {items : List Item} (h : Laid p cs items)
    {t : Token} (ht : t ∈ tokens items) : t.StandsIn p cs := by
  induction h with
  | done p cs => simp [tokens] at ht
  | skip p gap cs items _ ih =>
    obtain ⟨before, text, after, rfl, hstart, hstop, hkind⟩ := ih ht
    exact ⟨gap ++ before, text, after, by simp, by rw [hstart, Position.after_append], hstop, hkind⟩
  | token p text cs items kind hspells _ ih =>
    rcases List.mem_cons.mp ht with rfl | ht
    · exact ⟨[], text, cs, rfl, rfl, rfl, hspells⟩
    · obtain ⟨before, text', after, rfl, hstart, hstop, hkind⟩ := ih ht
      exact ⟨text ++ before, text', after, by simp, by rw [hstart, Position.after_append], hstop,
        hkind⟩
  | comment p text cs items _ _ _ _ ih =>
    obtain ⟨before, text', after, rfl, hstart, hstop, hkind⟩ := ih ht
    exact ⟨text ++ before, text', after, by simp, by rw [hstart, Position.after_append], hstop,
      hkind⟩
  | lineBreak p cs indent items _ ih => exact ih ht

lemma comment_covers {p : Position} {cs : List Char} {items : List Item} (h : Laid p cs items)
    {c : Comment} (hc : c ∈ comments items) :
    ∃ before after, cs = before ++ (c.text ++ after) ∧ c.start = p.after before ∧
      c.text.head? = some '#' ∧ '\n' ∉ c.text := by
  induction h with
  | done p cs => simp [comments] at hc
  | skip p gap cs items _ ih =>
    obtain ⟨before, after, rfl, hstart, htext⟩ := ih hc
    exact ⟨gap ++ before, after, by simp, by rw [hstart, Position.after_append], htext⟩
  | token p text cs items kind _ _ ih =>
    obtain ⟨before, after, rfl, hstart, htext⟩ := ih hc
    exact ⟨text ++ before, after, by simp, by rw [hstart, Position.after_append], htext⟩
  | comment p text cs items hhash hline _ _ ih =>
    rcases List.mem_cons.mp hc with rfl | hc
    · exact ⟨[], cs, rfl, rfl, hhash, hline⟩
    · obtain ⟨before, after, rfl, hstart, htext⟩ := ih hc
      exact ⟨text ++ before, after, by simp, by rw [hstart, Position.after_append], htext⟩
  | lineBreak p cs indent items _ ih => exact ih hc

lemma tokens_pairwise {p : Position} {cs : List Char} {items : List Item} (h : Laid p cs items) :
    (tokens items).Pairwise fun a b => a.stop.offset ≤ b.start.offset := by
  induction h with
  | done p cs => exact List.Pairwise.nil
  | skip p gap cs items _ ih => exact ih
  | token p text cs items kind _ hrest ih =>
    refine List.pairwise_cons.mpr ⟨?_, ih⟩
    intro b hb
    obtain ⟨before, -, -, -, hstart, -⟩ := hrest.token_covers hb
    change (p.after text).offset ≤ _
    rw [hstart, Position.offset_after (p.after text)]
    exact Nat.le_add_right _ _
  | comment p text cs items _ _ _ _ ih => exact ih
  | lineBreak p cs indent items _ ih => exact ih

lemma comments_pairwise {p : Position} {cs : List Char} {items : List Item} (h : Laid p cs items) :
    (comments items).Pairwise fun a b => a.start.line < b.start.line := by
  induction h with
  | done p cs => exact List.Pairwise.nil
  | skip p gap cs items _ ih => exact ih
  | token p text cs items kind _ _ ih => exact ih
  | comment p text cs items _ _ hend hrest ih =>
    refine List.pairwise_cons.mpr ⟨?_, ih⟩
    intro b hb
    obtain ⟨before, after, rfl, hstart, hhash, -⟩ := hrest.comment_covers hb
    rcases hend with hend | hnone
    · -- the later comment does not start with the line break, so the break lies before it
      cases before with
      | nil => simp [List.head?_append, hhash] at hend
      | cons c before =>
        obtain rfl : c = '\n' := by simpa using hend
        rw [hstart, Position.line_after, Position.line_after, List.count_cons_self]
        change p.line < _
        omega
    · have hnot : b ∉ comments items := by simp [hnone]
      exact absurd hb hnot
  | lineBreak p cs indent items _ ih => exact ih

end Laid

/-! ### Each step takes a beginning of the text -/

lemma quoteAt?_eq_some {cs opening : List Char} {quote : Quote}
    (h : quoteAt? cs = some (opening, quote)) :
    opening <+: cs ∧ Kind.stringOpen.Spells opening := by
  have hsplit : cs.takeWhile isStringFlag ++ cs.dropWhile isStringFlag = cs :=
    List.takeWhile_append_dropWhile
  unfold quoteAt? cutWhile at h
  cases hrest : cs.dropWhile isStringFlag with
  | nil => simp [hrest] at h
  | cons m rest =>
    simp only [hrest] at h
    split at h
    · next hmark =>
      obtain ⟨rfl, rfl⟩ := Prod.mk.inj (Option.some.inj h)
      refine ⟨?_, _, _, rfl, fun c hc => List.mem_takeWhile_imp hc, by simpa using hmark⟩
      have hcs : cs = cs.takeWhile isStringFlag ++ m :: rest := by rw [← hrest, hsplit]
      conv_rhs => rw [hcs]
      refine (List.prefix_append_right_inj _).mpr ?_
      unfold Quote.closing
      split
      · next htriple =>
        have htake : rest.take 2 = [m, m] := by simpa using htriple
        exact ⟨rest.drop 2, by rw [← htake]; simp⟩
      · exact ⟨rest, rfl⟩
    · cases h

lemma append_isPrefix {a b cs : List Char} (ha : a <+: cs) (hb : b <+: cs.drop a.length) :
    a ++ b <+: cs := by
  obtain ⟨rest, rfl⟩ := ha
  rw [List.drop_left] at hb
  exact (List.prefix_append_right_inj a).mpr hb

lemma fractionAt_isPrefix (cs : List Char) : fractionAt cs <+: cs := by
  unfold fractionAt
  split
  · exact (List.prefix_cons_inj _).mpr (List.takeWhile_prefix _)
  · exact List.nil_prefix

lemma numberSuffixAt_isPrefix (cs : List Char) : numberSuffixAt cs <+: cs := by
  unfold numberSuffixAt
  split
  · split
    · exact ⟨_, rfl⟩
    · exact List.nil_prefix
  · exact List.nil_prefix

lemma exponentAt_isPrefix (cs : List Char) : exponentAt cs <+: cs := by
  unfold exponentAt
  split
  · split
    · split
      · split
        · exact (List.prefix_cons_inj _).mpr ((List.prefix_cons_inj _).mpr
            (List.takeWhile_prefix _))
        · split
          · exact (List.prefix_cons_inj _).mpr (List.takeWhile_prefix _)
          · exact List.nil_prefix
      · split
        · exact List.prefix_rfl
        · exact List.nil_prefix
      · exact List.nil_prefix
    · exact List.nil_prefix
  · exact List.nil_prefix

lemma decimalAt_isPrefix (cs : List Char) : decimalAt cs <+: cs := by
  unfold decimalAt
  have hmantissa := append_isPrefix (List.takeWhile_prefix isDigitOrUnderscore)
    (fractionAt_isPrefix (cs.drop (cs.takeWhile isDigitOrUnderscore).length))
  have hnumber := append_isPrefix hmantissa (exponentAt_isPrefix _)
  exact append_isPrefix hnumber (numberSuffixAt_isPrefix _)

lemma numberAt_isPrefix (cs : List Char) : numberAt cs <+: cs := by
  unfold numberAt
  split
  · split
    · exact (List.prefix_cons_inj _).mpr ((List.prefix_cons_inj _).mpr (List.takeWhile_prefix _))
    · exact decimalAt_isPrefix _
  · exact decimalAt_isPrefix _

lemma markAt?_isPrefix {cs : List Char} {m : String} (h : markAt? cs = some m) : m.toList <+: cs :=
  List.isPrefixOf_iff_prefix.mp (by simpa using List.find?_some h)

lemma Scanner.continuationAt_isPrefix (cs : List Char) : continuationAt cs <+: cs := by
  unfold continuationAt
  split
  · exact List.prefix_rfl
  · exact ⟨_, rfl⟩
  · exact ⟨_, rfl⟩
  · exact List.prefix_rfl
  · exact List.nil_prefix

lemma stretch_split {quote : Quote} {skip : Nat} {cs text : List Char} {ending : StretchEnd}
    (h : stretch quote skip cs = (text, ending)) : ∃ rest, cs = text ++ rest ∧
      (ending = .closed → quote.closing <+: rest) ∧ (ending = .field → ['{'] <+: rest) := by
  induction cs generalizing skip text with
  | nil =>
    cases h
    exact ⟨[], rfl, nofun, nofun⟩
  | cons c cs ih =>
    have hkeep : ∀ n, StretchEnd.keep c (stretch quote n cs) = (text, ending) →
        ∃ rest, c :: cs = text ++ rest ∧ (ending = .closed → quote.closing <+: rest) ∧
          (ending = .field → ['{'] <+: rest) := by
      intro n hn
      obtain ⟨rfl, hending⟩ := Prod.mk.inj hn
      obtain ⟨rest, hcs, hrest⟩ := ih (Prod.ext rfl hending)
      exact ⟨rest, by rw [List.cons_append, ← hcs], hrest⟩
    have hstop : ∀ e, ([], e) = (text, ending) → (e = .closed → quote.closing <+: c :: cs) →
        (e = .field → ['{'] <+: c :: cs) → ∃ rest, c :: cs = text ++ rest ∧
          (ending = .closed → quote.closing <+: rest) ∧ (ending = .field → ['{'] <+: rest) := by
      intro e he hclosed hfield
      obtain ⟨rfl, rfl⟩ := Prod.mk.inj he
      exact ⟨c :: cs, rfl, hclosed, hfield⟩
    unfold stretch at h
    split at h
    · exact hstop _ h nofun nofun
    split at h
    · exact hkeep _ h
    split at h
    · split at h
      · exact hkeep _ h
      split at h
      · exact hkeep _ h
      split at h
      · exact hkeep _ h
      · exact hkeep _ h
    split at h
    · next hclosing =>
      exact hstop _ h (fun _ => List.isPrefixOf_iff_prefix.mp hclosing) nofun
    split at h
    · exact hstop _ h nofun nofun
    split at h
    · split at h
      · exact hkeep _ h
      · refine hstop _ h ?_ ?_
        · split <;> nofun
        · split
          · next hbrace =>
            intro _
            exact ⟨cs, by rw [hbrace]; rfl⟩
          · nofun
    · exact hkeep _ h

namespace Scanner

/-- What a step finds lies at the start of the text, and what is found behind it can follow. -/
structure Step.Fits (r : Step) (p : Position) (cs : List Char) : Prop where
  last : r.next = none → Laid p cs r.found
  goesOn : ∀ s, r.next = some s → ∃ rest, cs = r.taken ++ rest ∧ s.position = p.after r.taken ∧
    ∀ items, (rest.head? = some '\x00' → comments items = []) → Laid s.position rest items →
      Laid p cs (r.found ++ items)

variable {s : Scanner} {cs : List Char}

lemma fits_invalid : (s.invalid cs).Fits s.position cs where
  last _ := by
    have htoken := Laid.token s.position (cs.take 1) (cs.drop 1) [] .invalid trivial (.done _ _)
    rw [List.take_append_drop] at htoken
    exact htoken
  goesOn _ h := nomatch h

lemma fits_skip {taken : List Char} (h : taken <+: cs) : (s.skip taken).Fits s.position cs where
  last h := nomatch h
  goesOn s' hs' := by
    obtain ⟨rest, rfl⟩ := h
    cases hs'
    exact ⟨rest, rfl, rfl, fun items _ hrest => .skip s.position taken rest items hrest⟩

lemma fits_emit {kind : Kind} {taken : List Char} {mode : Mode} {enclosures : List Enclosure}
    (h : taken <+: cs) (hkind : kind.Spells taken) :
    (s.emit kind taken mode enclosures).Fits s.position cs where
  last h := nomatch h
  goesOn s' hs' := by
    obtain ⟨rest, rfl⟩ := h
    cases hs'
    refine ⟨rest, rfl, rfl, fun items _ hrest => ?_⟩
    have htoken := Laid.token s.position taken rest items kind hkind hrest
    unfold emit
    cases s.indent with
    | none => exact htoken
    | some n => exact .lineBreak _ _ n _ htoken

lemma fits_markStep : (s.markStep cs).Fits s.position cs := by
  unfold markStep
  split
  · exact fits_emit ⟨_, rfl⟩ rfl
  · exact fits_emit ⟨_, rfl⟩ trivial
  · split
    · next hc => exact fits_emit ⟨_, by rw [hc]; rfl⟩ rfl
    · split
      · exact fits_emit ⟨_, rfl⟩ trivial
      · exact fits_invalid
  · split
    · next hmark => exact fits_emit (markAt?_isPrefix hmark) rfl
    · exact fits_invalid

lemma spells_ofWord (word : List Char) : (Kind.ofWord (String.ofList word)).Spells word := by
  unfold Kind.ofWord
  split <;> simp [Kind.Spells]

lemma fits_tokenStep : (s.tokenStep cs).Fits s.position cs := by
  unfold tokenStep
  split
  · next hquote => exact fits_emit (quoteAt?_eq_some hquote).1 (quoteAt?_eq_some hquote).2
  · split
    · exact ⟨fun _ => .done _ _, fun _ h => nomatch h⟩
    · split
      · exact fits_emit (List.takeWhile_prefix _) (spells_ofWord _)
      · split
        · exact fits_emit (numberAt_isPrefix _) trivial
        · exact fits_markStep

lemma fits_comment {text rest : List Char} (hhash : text.head? = some '#') (hline : '\n' ∉ text)
    (hstop : ∀ c ∈ rest.head?, c = '\n' ∨ c = '\x00') :
    Step.Fits ⟨[.comment ⟨text, s.position⟩], text,
      some { s with position := s.position.after text }⟩ s.position (text ++ rest) where
  last h := nomatch h
  goesOn s' hs' := by
    cases hs'
    refine ⟨rest, rfl, rfl, fun items hnul hrest => ?_⟩
    refine .comment s.position text rest items hhash hline ?_ hrest
    cases rest with
    | nil =>
      -- a comment needs a text, and there is none left
      refine Or.inr (List.eq_nil_iff_forall_not_mem.mpr fun c hc => ?_)
      obtain ⟨before, after, hnil, -, hhash, -⟩ := hrest.comment_covers hc
      simp [(List.append_eq_nil_iff.mp (List.append_eq_nil_iff.mp hnil.symm).2).1] at hhash
    | cons c rest =>
      rcases hstop c rfl with rfl | rfl
      · exact Or.inl rfl
      · exact Or.inr (hnul rfl)

lemma fits_codeStep : (s.codeStep cs).Fits s.position cs := by
  unfold codeStep
  split
  · exact ⟨fun _ => .done _ _, fun _ h => nomatch h⟩
  · next c tail =>
    split
    · next hhash =>
      subst hhash
      let inside : Char → Bool := fun c => c ≠ '\n' && c ≠ '\x00'
      have hstop : ∀ c ∈ (('#' :: tail).dropWhile inside).head?, c = '\n' ∨ c = '\x00' := by
        intro c hc
        have hnot := List.head?_dropWhile_not inside ('#' :: tail)
        rw [Option.mem_def.mp hc] at hnot
        simpa [inside, imp_iff_not_or] using hnot
      have hline : '\n' ∉ ('#' :: tail).takeWhile inside :=
        fun h => by simpa [inside] using List.mem_takeWhile_imp h
      have hcomment := @fits_comment s _ _ rfl hline hstop
      rw [List.takeWhile_append_dropWhile] at hcomment
      exact hcomment
    split
    · exact fits_skip (continuationAt_isPrefix _)
    split
    · exact fits_skip (List.takeWhile_prefix _)
    split
    · next hline => exact fits_skip ⟨tail, by rw [hline]; rfl⟩
    split
    · exact fits_skip ⟨tail, rfl⟩
    · exact fits_tokenStep

lemma fits_literalStep (quote : Quote) : (s.literalStep quote cs).Fits s.position cs := by
  unfold literalStep
  cases hstretch : stretch quote 0 cs with
  | mk text ending =>
    obtain ⟨rest, rfl, hclosed, hfield⟩ := stretch_split hstretch
    -- the piece of text and the closing quotes or the opening brace behind it
    have hpair : ∀ (kind : Kind) (stop : List Char) (items : List Item) (rest : List Char),
        kind.Spells stop → Laid ((s.position.after text).after stop) rest items →
        Laid s.position (text ++ (stop ++ rest))
          (.token ⟨.stringText (String.ofList text), s.position, s.position.after text⟩ ::
            .token ⟨kind, s.position.after text, (s.position.after text).after stop⟩ :: items) := by
      intro kind stop items rest hkind hrest
      exact .token _ _ _ _ _ (by simp [Kind.Spells]) (.token _ _ _ _ _ hkind hrest)
    cases ending with
    | broken => exact fits_invalid
    | closed =>
      obtain ⟨rest, rfl⟩ := hclosed rfl
      refine ⟨nofun, fun s' hs' => ?_⟩
      cases hs'
      refine ⟨rest, by simp, by simp [Position.after_append], fun items _ hrest => ?_⟩
      exact hpair .stringClose quote.closing items rest ⟨quote, rfl⟩ hrest
    | field =>
      obtain ⟨rest, rfl⟩ := hfield rfl
      refine ⟨nofun, fun s' hs' => ?_⟩
      cases hs'
      refine ⟨rest, by simp, by simp [Position.after_append], fun items _ hrest => ?_⟩
      exact hpair .fieldOpen ['{'] items rest rfl hrest

lemma Step.Fits.behind {r : Step} {p : Position} {text : List Char}
    (h : r.Fits (p.after text) cs) : Step.Fits ⟨r.found, text ++ r.taken, r.next⟩ p (text ++ cs) where
  last hlast := .skip _ _ _ _ (h.last hlast)
  goesOn s hs := by
    obtain ⟨rest, rfl, hposition, hlaid⟩ := h.goesOn s hs
    refine ⟨rest, (List.append_assoc ..).symm, by rw [hposition, Position.after_append], ?_⟩
    intro items hnul hrest
    exact .skip _ _ _ _ (hlaid items hnul hrest)

lemma fits_formatStep (quote : Quote) : (s.formatStep quote cs).Fits s.position cs := by
  unfold formatStep
  dsimp only
  obtain ⟨rest, hrest⟩ : formatText quote cs <+: cs := List.takeWhile_prefix _
  generalize formatText quote cs = text at hrest ⊢
  subst hrest
  rw [List.drop_left]
  split
  · exact Step.Fits.behind (fits_emit ⟨_, rfl⟩ (show Kind.fieldClose.Spells ['}'] from rfl))
  · exact Step.Fits.behind (fits_emit ⟨_, rfl⟩ (show Kind.fieldOpen.Spells ['{'] from rfl))
  · exact fits_invalid

lemma fits_step : (s.step cs).Fits s.position cs := by
  unfold step
  split
  · exact fits_codeStep
  · exact fits_literalStep _
  · exact fits_formatStep _

lemma tokenStep_nul : s.tokenStep ('\x00' :: cs) = s.invalid ('\x00' :: cs) := by
  have hquote : quoteAt? ('\x00' :: cs) = none := by
    simp [quoteAt?, cutWhile, isStringFlag]
  have hname : isNameStart '\x00' = false := by decide
  have hmark : markAt? ('\x00' :: cs) = none := by
    simp [markAt?, marks, List.isPrefixOf]
  rw [tokenStep, hquote]
  simp only [hname]
  rw [if_neg (by simp), if_neg (by simp)]
  unfold markStep
  split
  · next h => cases h
  · next h => cases h
  · next h => cases h
  · rw [hmark]

lemma step_nul : s.step ('\x00' :: cs) = s.invalid ('\x00' :: cs) := by
  unfold step
  split
  · rw [← tokenStep_nul, codeStep, if_neg (by simp), if_neg (by simp [continuationAt])]
    rfl
  · simp [literalStep, stretch]
  · simp [formatStep, formatText]

lemma comments_items_nul (n : Nat) : comments (items n s ('\x00' :: cs)) = [] := by
  cases n with
  | zero => rfl
  | succ n =>
    rw [items, step_nul]
    rfl

/-- The items that scanning finds are laid along the text. -/
lemma laid_items (n : Nat) : Laid s.position cs (items n s cs) := by
  induction n generalizing s cs with
  | zero => exact .done _ _
  | succ n ih =>
    have hfits : (s.step cs).Fits s.position cs := fits_step
    rw [items]
    cases hnext : (s.step cs).next with
    | none => exact hfits.last hnext
    | some s' =>
      obtain ⟨rest, hcs, -, hlaid⟩ := hfits.goesOn s' hnext
      have hdrop : cs.drop (s.step cs).taken.length = rest := by
        generalize (s.step cs).taken = taken at hcs
        rw [hcs, List.drop_left]
      rw [hdrop]
      refine hlaid _ (fun hnul => ?_) ih
      cases rest with
      | nil => cases hnul
      | cons c rest =>
        cases hnul
        exact comments_items_nul n

end Scanner

theorem laid_scan (source : List Char) : Laid Position.start source (scan source) :=
  @Scanner.laid_items Scanner.start source (source.length + 1)

end ImportFence.Source
