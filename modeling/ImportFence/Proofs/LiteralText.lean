import ImportFence.Proofs.Scanning
import Mathlib.Data.List.Chain

/-!
# The text of literals

The text of a literal is scanned without gaps: it begins where the quotes or the field before it end,
and ends where the quotes or the field behind it begin. So what stands between the quotes of a
literal, outside of its fields, is the text that its tokens carry.
-/

namespace ImportFence.Source

def Kind.isText : Kind → Bool
  | .stringText _ => true
  | _ => false

/-- Two tokens between which nothing is left out if one of them is a piece of text, or the first one
opens a literal. -/
def Joined (a b : Token) : Prop :=
  a.kind = .stringOpen ∨ a.kind.isText = true ∨ b.kind.isText = true → b.start = a.stop

lemma tokens_append (items items' : List Item) :
    tokens (items ++ items') = tokens items ++ tokens items' :=
  List.filterMap_append

namespace Scanner

/-- Whether the next characters are the text of a literal. -/
def inLiteral (s : Scanner) : Bool :=
  match s.mode with
  | .literal _ => true
  | _ => false

/-- What the first token behind a state is like: it continues a literal, or it is no text. -/
def Begins (s : Scanner) (t : Token) : Prop :=
  if s.inLiteral then t.start = s.position else t.kind.isText = false

/-- What is found from one state on, joined to what is found from the next one on. -/
structure Joins (s : Scanner) (found : List Item) (next : Option Scanner) : Prop where
  chain : (tokens found).IsChain Joined
  first : ∀ t ∈ (tokens found).head?, s.Begins t
  last : ∀ s' ∈ next, ∀ b, s'.Begins b → ∀ a ∈ (tokens found).getLast?, Joined a b
  silent : tokens found = [] → ∀ s' ∈ next, ∀ b, s'.Begins b → s.Begins b

variable {s : Scanner} {cs : List Char}

lemma joins_invalid : s.Joins (s.invalid cs).found (s.invalid cs).next where
  chain := List.isChain_singleton _
  first t ht := by
    cases ht
    unfold Begins
    split <;> rfl
  last := nofun
  silent := nofun

lemma joins_silent {s' : Scanner} {found : List Item} (hfound : tokens found = [])
    (hs : s.inLiteral = false) (hs' : s'.mode = s.mode) : s.Joins found (some s') where
  chain := by rw [hfound]; exact List.isChain_nil
  first := by simp [hfound]
  last := by simp [hfound]
  silent _ s'' hs'' b hb := by
    cases hs''
    have hliteral : s'.inLiteral = false := by rw [← hs, inLiteral, inLiteral, hs']
    simpa [Begins, hs, hliteral] using hb

lemma joins_emit {s₀ : Scanner} (hs : s₀.inLiteral = false) {kind : Kind}
    (hkind : kind.isText = false) {taken : List Char} {mode : Mode} {enclosures : List Enclosure}
    (hmode : kind = .stringOpen → ∃ quote, mode = .literal quote) :
    s₀.Joins (s.emit kind taken mode enclosures).found (s.emit kind taken mode enclosures).next := by
  have htokens : tokens (s.emit kind taken mode enclosures).found =
      [⟨kind, s.position, s.position.after taken⟩] := by
    unfold emit
    cases s.indent <;> rfl
  refine ⟨?_, ?_, ?_, ?_⟩
  · rw [htokens]
    exact List.isChain_singleton _
  · rw [htokens]
    intro t ht
    cases ht
    simp [Begins, hs, hkind]
  · rw [htokens, List.getLast?_singleton]
    rintro s' hs' b hb a ha hjoined
    cases hs'
    cases ha
    unfold Begins at hb
    split at hb
    · exact hb
    · next hcode =>
      rw [hb, hkind] at hjoined
      obtain ⟨quote, hquote⟩ := hmode (by simpa using hjoined)
      exact absurd (by simp [inLiteral, hquote]) hcode
  · simp [htokens]

lemma joins_markStep (hs : s.inLiteral = false) :
    s.Joins (s.markStep cs).found (s.markStep cs).next := by
  unfold markStep
  split
  · exact joins_emit hs rfl nofun
  · exact joins_emit hs rfl nofun
  · split
    · exact joins_emit hs rfl nofun
    · split
      · exact joins_emit hs rfl nofun
      · exact joins_invalid
  · split
    · exact joins_emit hs rfl nofun
    · exact joins_invalid

lemma joins_tokenStep (hs : s.inLiteral = false) :
    s.Joins (s.tokenStep cs).found (s.tokenStep cs).next := by
  unfold tokenStep
  split
  · exact joins_emit hs rfl fun _ => ⟨_, rfl⟩
  · split
    · exact ⟨List.isChain_nil, nofun, nofun, nofun⟩
    · split
      · refine joins_emit hs ?_ ?_
        · unfold Kind.ofWord
          split <;> rfl
        · unfold Kind.ofWord
          split <;> nofun
      · split
        · exact joins_emit hs rfl nofun
        · exact joins_markStep hs

lemma joins_codeStep (hs : s.inLiteral = false) :
    s.Joins (s.codeStep cs).found (s.codeStep cs).next := by
  unfold codeStep
  split
  · exact ⟨List.isChain_nil, nofun, nofun, nofun⟩
  · split
    · exact joins_silent rfl hs rfl
    split
    · exact joins_silent rfl hs rfl
    split
    · exact joins_silent rfl hs rfl
    split
    · exact joins_silent rfl hs rfl
    split
    · exact joins_silent rfl hs rfl
    · exact joins_tokenStep hs

lemma joins_pair (hs : s.inLiteral = true) {text : String} {kind : Kind} {middle stop : Position}
    {s' : Scanner} (hkind : kind.isText = false) (hopen : kind ≠ .stringOpen)
    (hs' : s'.mode = .code) :
    s.Joins [.token ⟨.stringText text, s.position, middle⟩, .token ⟨kind, middle, stop⟩]
      (some s') where
  chain := List.isChain_pair.mpr fun _ => rfl
  first t ht := by
    obtain rfl := Option.some.inj ht
    simp [Begins, hs]
  last s'' hs'' b hb a ha hjoined := by
    cases hs''
    obtain rfl := Option.some.inj ha
    have hcode : s'.inLiteral = false := by rw [inLiteral, hs']
    have htext : b.kind.isText = false := by simpa [Begins, hcode] using hb
    simp [htext, hkind, hopen] at hjoined
  silent := nofun

lemma joins_literalStep {quote : Quote} (hs : s.mode = .literal quote) :
    s.Joins (s.literalStep quote cs).found (s.literalStep quote cs).next := by
  have hliteral : s.inLiteral = true := by rw [inLiteral, hs]
  unfold literalStep
  cases stretch quote 0 cs with
  | mk text ending =>
    cases ending with
    | broken => exact joins_invalid
    | closed => exact joins_pair hliteral rfl nofun rfl
    | field => exact joins_pair hliteral rfl nofun rfl

lemma joins_formatStep {quote quote' : Quote} (hs : s.mode = .format quote') :
    s.Joins (s.formatStep quote cs).found (s.formatStep quote cs).next := by
  have hliteral : s.inLiteral = false := by rw [inLiteral, hs]
  unfold formatStep
  dsimp only
  split
  · exact joins_emit hliteral rfl nofun
  · exact joins_emit hliteral rfl nofun
  · exact joins_invalid

lemma joins_step : s.Joins (s.step cs).found (s.step cs).next := by
  unfold step
  split
  · next hmode => exact joins_codeStep (by rw [inLiteral, hmode])
  · next hmode => exact joins_literalStep hmode
  · next hmode => exact joins_formatStep hmode

lemma joined_items (n : Nat) : (tokens (items n s cs)).IsChain Joined ∧
    ∀ t ∈ (tokens (items n s cs)).head?, s.Begins t := by
  induction n generalizing s cs with
  | zero => exact ⟨List.isChain_nil, nofun⟩
  | succ n ih =>
    have hstep : s.Joins (s.step cs).found (s.step cs).next := joins_step
    rw [items]
    cases hnext : (s.step cs).next with
    | none => exact ⟨hstep.chain, hstep.first⟩
    | some s' =>
      obtain ⟨hchain, hfirst⟩ := @ih s' (cs.drop (s.step cs).taken.length)
      dsimp only
      rw [tokens_append]
      refine ⟨List.isChain_append.mpr ⟨hstep.chain, hchain, ?_⟩, ?_⟩
      · intro a ha b hb
        exact hstep.last s' hnext b (hfirst b hb) a ha
      · intro t ht
        cases hfound : tokens (s.step cs).found with
        | nil =>
          rw [hfound] at ht
          exact hstep.silent hfound s' hnext t (hfirst t ht)
        | cons u found =>
          rw [hfound] at ht
          exact hstep.first t (by rw [hfound]; exact ht)

end Scanner

/-- Nothing is left out before and behind the text of a literal. -/
theorem joined_scan (source : List Char) : (tokens (scan source)).IsChain Joined :=
  (@Scanner.joined_items Scanner.start source (source.length + 1)).1

lemma Token.StandsIn.append {source before text : List Char} {t : Token} {a : Token}
    (h : t.StandsIn Position.start source) (hsource : before ++ text <+: source)
    (ha : a.start = Position.start.after before) (hstop : a.stop = a.start.after text)
    (hjoined : t.start = a.stop) :
    ∃ more after, source = before ++ (text ++ (more ++ after)) ∧
      t.stop = t.start.after more ∧ t.kind.Spells more := by
  obtain ⟨before', more, after, rfl, hstart, hmore, hspells⟩ := h
  have hlength : before'.length = (before ++ text).length := by
    have hoffset := congrArg Position.offset hjoined
    rw [hstart, hstop, ha, ← Position.after_append, Position.offset_after,
      Position.offset_after] at hoffset
    omega
  obtain ⟨rest, hrest⟩ := hsource
  obtain ⟨rfl, rfl⟩ := List.append_inj hrest hlength.symm
  exact ⟨more, after, by simp, hmore, hspells⟩

/-- The text of a literal stands in a source right behind the token before it, and right before the
one behind it: between the quotes, or between these and a field. -/
theorem exists_text_between {source : List Char} {front back : List Token} {a b c : Token} {text : String}
    (h : tokens (scan source) = front ++ a :: b :: c :: back) (hb : b.kind = .stringText text) :
    ∃ before opening closing after,
      source = before ++ (opening ++ (text.toList ++ (closing ++ after))) ∧
      a.start = Position.start.after before ∧ a.kind.Spells opening ∧ c.kind.Spells closing := by
  have hstands : ∀ t ∈ [a, b, c], t.StandsIn Position.start source := by
    intro t ht
    refine (laid_scan source).token_covers ?_
    rw [h]
    simp only [List.mem_cons, List.not_mem_nil, or_false] at ht
    simp only [List.mem_append, List.mem_cons]
    tauto
  have hchain := (List.isChain_append.mp (h ▸ joined_scan source)).2.1
  obtain ⟨hab, hchain⟩ := List.isChain_cons_cons.mp hchain
  obtain ⟨hbc, -⟩ := List.isChain_cons_cons.mp hchain
  have htext : b.kind.isText = true := by rw [hb]; rfl
  have hab : b.start = a.stop := hab (by simp [htext])
  have hbc : c.start = b.stop := hbc (by simp [htext])
  obtain ⟨before, opening, rest, hsource, hstart, hstop, hopening⟩ := hstands a (by simp)
  obtain ⟨content, rest', hsource', hbstop, hcontent⟩ := (hstands b (by simp)).append
    (by rw [hsource, ← List.append_assoc]; exact List.prefix_append _ _) hstart hstop hab
  rw [hb] at hcontent
  obtain rfl : content = text.toList := hcontent
  obtain ⟨closing, after, hsource'', -, hclosing⟩ := (hstands c (by simp)).append
    (by rw [hsource', ← List.append_assoc, ← List.append_assoc]; exact List.prefix_append _ _)
    (by rw [hab, hstop, hstart, ← Position.after_append]) hbstop hbc
  exact ⟨before, opening, closing, after, by rw [hsource'', List.append_assoc], hstart, hopening,
    hclosing⟩

end ImportFence.Source
