import ImportFence.Source.Pattern
import ImportFence.Proofs.Display

/-!
# Reading expressions

What the readers of expressions take is balanced in its brackets and not broken by tokens that
divide expressions, and the shape that they give is the one that the tokens show: a name, a literal
with its text, a list or tuple with the texts of its elements. This holds of the readers of a level
if it holds of those one level further inside, and so of all.
-/

namespace ImportFence.Source

namespace Reader

variable {α β : Type} {p q : Reader α} {f : α → Reader β} {R : α → Prop} {S : β → Prop}

/-- What the reader takes ends the brackets in which it started, and what it gives is as asked. -/
def Closes (R : α → Prop) (p : Reader α) : Prop :=
  Takes [] p fun a w => R a ∧ Closing w

lemma closes_bind (hp : Within Balanced p) (hf : ∀ a, Closes S (f a)) : Closes S (p >>= f) :=
  Takes.bind hp fun a _ hw => (hf a).mono fun _ _ hv => ⟨hv.1, hv.2.append hw⟩

lemma closes_accept_bind {f : Bool → Reader β} {k : Kind} (hk : k.inner = true)
    (hyes : Closes S (f true)) (hno : Closes S (f false)) : Closes S (accept k >>= f) :=
  closes_bind (within_accept hk) fun b => by
    cases b with
    | true => exact hyes
    | false => exact hno

lemma closes_ite {c : Prop} [Decidable c] (hp : Closes R p) (hq : Closes R q) :
    Closes R (if c then p else q) :=
  takes_ite (fun _ => hp) (fun _ => hq)

lemma Closes.then_pure {b : β} (hp : Closes R p) (hS : S b) :
    Closes S (p >>= fun _ => pure b) :=
  Takes.bind hp fun _ _ hw => takes_pure ⟨hS, by simpa using hw.2⟩

lemma closes_expect {k : Kind} (hk : k.closes = true) : Closes (fun _ => True) (expect k) :=
  (takes_expect k).mono fun _ _ hw => ⟨trivial, hw ▸ closing_singleton hk⟩

lemma closes_itemsUpTo {closing : String} (hk : (Kind.mark closing).closes = true)
    (hp : Within Balanced p) : Closes (fun _ => True) (itemsUpTo closing p) := by
  refine (takes_itemsUpTo closing hp).mono fun r w hw => ⟨trivial, ?_⟩
  obtain ⟨ws, hws, rfl⟩ := hw
  exact ⟨_, _, rfl, commaList_mem rfl (forall_mem_of_forall₂ hws) r.2, hk⟩

end Reader

namespace Expression

open Reader IsLanguage

/-- What the reader takes is an expression, of the shape that it gives. -/
def Faithful (p : Reader Expression) : Prop :=
  Takes [] p Written

/-- The readers of all levels are faithful. -/
structure Levels.Faithful (l : Levels) : Prop where
  whole : Expression.Faithful l.whole
  disjunction : Expression.Faithful l.disjunction
  primary : Expression.Faithful l.primary

variable {p : Reader Expression} {l : Levels}

lemma Faithful.within (h : Faithful p) : Within Unbroken p :=
  h.mono fun _ _ hw => hw.1

lemma Faithful.balanced (h : Faithful p) : Within Balanced p :=
  h.mono fun _ _ hw => hw.1.balanced

/-! ### Lists -/

lemma faithful_starred (h : Faithful p) : Faithful (starred p) := by
  refine takes_accept_bind (h.bind fun e w hw => takes_pure ?_) h
  rw [List.append_nil]
  exact ⟨cons rfl hw.1, shaped_other (shapeOf_mark (by decide) (by decide)) w⟩

/-- A text as expressions with commas between them are, with or without a word before them that
yields them: balanced, with no other token outermost that divides expressions, and with no colon at
its end. -/
structure Listed (w : List Kind) : Prop where
  balanced : Balanced w
  divided : ∀ k, k.divides = true → k ≠ .mark "," → k ≠ .keyword "yield" →
    Nesting.standsIn k ⟨0, 0⟩ w = false
  last : w.getLast? ≠ some (.mark ":")

lemma Listed.settled {w : List Kind} (h : Listed w) : Settled w :=
  ⟨h.balanced.free, h.last⟩

lemma listed_commaList {ws : List (List Kind)} (h : ∀ w ∈ ws, Unbroken w) (trailing : Bool) :
    Listed (commaList ws trailing) where
  balanced := commaList_mem rfl (fun w hw => (h w hw).balanced) trailing
  divided _ hk hcomma _ := standsIn_commaList hk hcomma h trailing
  last := (commaList_mem (L := Settled) rfl (fun w hw => (h w hw).settled) trailing).last

lemma listed_of_unbroken {w : List Kind} (h : Unbroken w) : Listed w := by
  have hlisted : Listed (commaList [w] false) := listed_commaList (by simpa using h) false
  simpa [commaList] using hlisted

lemma Listed.cons {k : Kind} {w : List Kind} (hk : k.even = true)
    (hword : k.divides = false ∨ k = .keyword "yield") (hw : Listed w) : Listed (k :: w) := by
  have hinner : k.inner = true := by
    simp only [Kind.even, Bool.and_eq_true] at hk
    exact hk.1.1
  have hcolon : [k].getLast? ≠ some (.mark ":") := by
    rintro ⟨rfl⟩
    exact absurd hk (by decide)
  refine ⟨IsLanguage.cons hinner hw.1, fun l hl hcomma hyield => ?_,
    getLast?_append_ne hcolon hw.last⟩
  have hne : k ≠ l := by
    rintro rfl
    rcases hword with hword | rfl
    · simp [hword] at hl
    · exact hyield rfl
  rw [Nesting.standsIn_cons, (next_of_even hk 0).2.2, hw.2 l hl hcomma hyield]
  simp [hne]

lemma takes_list (h : Faithful p) :
    Takes [] (list p) fun e w => Listed w ∧ Shaped e.shape w := by
  refine (takes_items begins (faithful_starred h)).bind fun r w hw => ?_
  obtain ⟨es, trailing⟩ := r
  obtain ⟨ws, hne, hws, rfl⟩ := hw
  have hlisted := listed_commaList (unbroken_of_written hws) trailing
  cases hws with
  | nil => exact absurd rfl hne
  | cons he hes =>
    cases hes with
    | nil =>
      cases trailing with
      | false => exact takes_pure (by simpa [commaList] using And.intro hlisted he.shaped)
      | true => exact takes_pure (by simpa using ⟨hlisted, he.shaped.append (by simp)⟩)
    | cons hnext hmore => exact takes_pure (by simpa using ⟨hlisted, he.shaped.append (by simp)⟩)

lemma Listed.within {p : Reader Expression} {P : Expression → List Kind → Prop}
    (h : Takes [] p fun e w => Listed w ∧ P e w) : Within Balanced p :=
  h.mono fun _ _ hw => hw.1.1

lemma takes_yieldRest (h : Faithful p) :
    Takes [] (yieldRest p) fun e w => Listed w ∧ e.shape = .other := by
  refine takes_accept_bind (h.bind fun e w hw => takes_pure ?_) ?_
  · rw [List.append_nil]
    exact ⟨(listed_of_unbroken hw.1).cons rfl (Or.inl rfl), rfl⟩
  · refine (takes_optionalIf begins (takes_list h)).bind fun o w hw => takes_pure ?_
    rw [List.append_nil]
    rcases hw with ⟨e, -, hw⟩ | ⟨-, rfl⟩
    · exact ⟨hw.1, rfl⟩
    · exact ⟨listed_of_unbroken nil, rfl⟩

lemma takes_listOrYield (h : Faithful p) :
    Takes [] (listOrYield p) fun e w => Listed w ∧ Shaped e.shape w := by
  refine takes_accept_bind ((takes_yieldRest h).mono fun e w hw => ?_) (takes_list h)
  rw [hw.2]
  exact ⟨hw.1.cons rfl (Or.inr rfl), shaped_other (shapeOf_keyword "yield") w⟩

/-! ### Literals -/

/-- What the reader takes is a part of a literal, and adds the text that it gives. -/
def Piecewise (part : Reader (Option String)) : Prop :=
  Takes [] part fun o w => Balanced w ∧
    ∀ ks, outerText 0 (w ++ ks) = o.getD "" ++ outerText 0 ks

lemma Piecewise.balanced {part : Reader (Option String)} (h : Piecewise part) :
    Within Balanced part :=
  h.mono fun _ _ hw => hw.1

lemma piecewise_stringPart {part : Reader (Option String)} (hpart : Piecewise part)
    (h : Faithful p) : Piecewise (stringPart part p) := by
  refine takes_peek_bind (takes_pure ⟨nil, fun ks => by simp⟩) fun k => ?_
  split
  · next s heq =>
    cases heq
    refine takes_advance_bind (takes_pure ⟨singleton rfl, fun ks => ?_⟩)
    simp [outerText, Kind.opens, Kind.closes, Kind.text]
  · next heq =>
    cases heq
    have hclose : Closes (· = some "") (expect .fieldClose >>= fun _ => pure (some "")) :=
      (closes_expect rfl).then_pure rfl
    have hformat : Within Balanced (whileFound (return (← part).isSome)) :=
      within_whileFound (within_bind hpart.balanced fun _ => within_pure _)
    refine takes_advance_bind (Takes.mono (P := fun o w => o = some "" ∧ Closing w) ?_ ?_)
    · exact closes_bind (Listed.within (takes_listOrYield h)) fun _ =>
        closes_bind (within_accept rfl) fun _ => closes_bind (within_accept rfl) fun _ =>
          closes_accept_bind rfl (closes_bind hformat fun _ => hclose) hclose
    · rintro o w ⟨rfl, hw⟩
      refine ⟨(hw.unbroken rfl).balanced, fun ks => ?_⟩
      simpa using outerText_closing (k := .fieldOpen) rfl hw ks
  · exact takes_pure ⟨nil, fun ks => by simp⟩

lemma piecewise_stringPartWithin (h : Faithful p) (n : Nat) :
    Piecewise (stringPartWithin p n) := by
  induction n with
  | zero => exact takes_fail
  | succ n ih => exact piecewise_stringPart ih h

/-- A text up to the bracket that ends it, of which the content is as asked for. -/
def Content (P : List Kind → Prop) (w : List Kind) : Prop :=
  ∃ content k, w = content ++ [k] ∧ Balanced content ∧ k.closes = true ∧ P content

lemma Content.closing {P : List Kind → Prop} {w : List Kind} (h : Content P w) : Closing w := by
  obtain ⟨content, k, hw, hcontent, hk, -⟩ := h
  exact ⟨content, k, hw, hcontent, hk⟩

lemma takes_stringRest {part : Reader (Option String)} (hpart : Piecewise part) (n : Nat) :
    Takes [] (stringRest part n) fun s w => Content (outerText 0 · = s) w := by
  induction n with
  | zero => exact takes_fail
  | succ n ih =>
    refine takes_accept_bind (takes_pure ⟨[], .stringClose, rfl, nil, rfl, rfl⟩) ?_
    refine hpart.bind fun o w hw => ?_
    cases o with
    | none => exact takes_fail
    | some s =>
      refine ih.bind fun t v hv => takes_pure ?_
      obtain ⟨content, k, rfl, hcontent, hk, rfl⟩ := hv
      exact ⟨w ++ content, k, by simp, append hw.1 hcontent, hk, hw.2 content⟩

/-- A literal: its opening, and a content whose text is given. -/
def Literal (s : String) (w : List Kind) : Prop :=
  ∃ v, w = .stringOpen :: v ∧ Content (outerText 0 · = s) v

lemma Literal.unbroken {s : String} {w : List Kind} (h : Literal s w) : Unbroken w := by
  obtain ⟨v, rfl, hv⟩ := h
  exact hv.closing.unbroken rfl

lemma Literal.shaped {s : String} {w : List Kind} (h : Literal s w) : Shaped (.text s) w := by
  obtain ⟨v, rfl, content, k, rfl, hcontent, hk, rfl⟩ := h
  exact shaped_literal hcontent hk

lemma takes_stringLiteral (h : Faithful p) : Takes [] (stringLiteral p) Literal := by
  refine takes_expect_bind (takes_size_bind fun n => ?_)
  exact (takes_stringRest (piecewise_stringPartWithin h n) n).mono fun s w hw => ⟨w, rfl, hw⟩

lemma faithful_strings (h : Faithful p) : Faithful (strings p) := by
  have hliteral := takes_stringLiteral h
  have hone : Takes [] (stringLiteral p >>= fun _ => pure true) fun _ w => w ≠ [] ∧ Unbroken w := by
    refine hliteral.bind fun s w hw => takes_pure ?_
    rw [List.append_nil]
    exact ⟨by obtain ⟨v, rfl, -⟩ := hw; simp, hw.unbroken⟩
  refine hliteral.bind fun s w hw => takes_peek_bind ?_ fun k => takes_ite (fun hk => ?_) fun _ => ?_
  · exact takes_pure (by simpa using ⟨hw.unbroken, hw.shaped⟩)
  · cases hk
    refine Takes.bind (takes_whileFound_ahead (L := Unbroken) (F := fun _ u => u ≠ [] ∧ Unbroken u)
      ?_ ?_) fun _ v hv => takes_pure ?_
    · exact takes_peek_ahead (takes_ite (fun _ => hone.anyhow) fun hk => absurd rfl hk)
    · refine takes_peek_bind (takes_pure nil) fun k => takes_ite (fun _ => ?_) fun _ => takes_pure nil
      exact hone.anyhow.mono fun _ _ hw => hw.2
    · obtain ⟨-, u, v, rfl, hu, hv, -⟩ := hv
      rw [List.append_nil]
      exact ⟨append hw.unbroken (append hu.2 hv), hw.shaped.append (by simp [hu.1])⟩
  · exact takes_pure (by simpa using ⟨hw.unbroken, hw.shaped⟩)

/-! ### Comprehensions -/

lemma within_targetItem (h : Faithful p) : Within Balanced (targetItem p) :=
  within_bind (faithful_starred h).balanced fun _ => within_ite (within_pure _) within_fail

lemma within_targets (h : Faithful p) : Within Balanced (targets p) :=
  within_bind (within_items rfl (within_targetItem h)) fun _ => within_pure _

/-- A text that begins with the word for a loop, of an asynchronous one too. -/
def Loops (w : List Kind) : Prop :=
  ∃ v, w = .keyword "for" :: v ∨ w = .keyword "async" :: .keyword "for" :: v

/-- A clause of a comprehension, or nothing. -/
def Clause (found : Bool) (w : List Kind) : Prop :=
  Balanced w ∧ if found then Loops w ∨ w.head? = some (.keyword "if") else w = []

lemma takes_comprehensionClause {disjunction : Reader Expression} (hp : Faithful p)
    (hd : Faithful disjunction) : Takes [] (comprehensionClause p disjunction) Clause := by
  have hloop : Takes [] (do targets p; keyword "in"; let _ ← disjunction; return true)
      fun b w => b = true ∧ Balanced w :=
    Takes.bind (within_targets hp) fun _ v hv => takes_expect_bind (hd.balanced.bind fun _ w hw =>
      takes_pure ⟨rfl, append hv (cons rfl (by simpa using hw))⟩)
  refine takes_peekTwo_bind (fun o => takes_pure ⟨nil, rfl⟩) fun k o => ?_
  split
  · next heq =>
    cases heq
    refine takes_advance_bind (takes_advance_bind (hloop.mono ?_))
    rintro b w ⟨rfl, hw⟩
    exact ⟨cons rfl (cons rfl hw), Or.inl ⟨w, Or.inr rfl⟩⟩
  · next heq =>
    cases heq
    refine takes_advance_bind (hloop.anyhow.mono ?_)
    rintro b w ⟨rfl, hw⟩
    exact ⟨cons rfl hw, Or.inl ⟨w, Or.inl rfl⟩⟩
  · next heq =>
    cases heq
    refine takes_advance_bind (hd.balanced.anyhow.bind fun _ w hw => takes_pure ?_)
    exact ⟨cons rfl (append hw nil), Or.inr rfl⟩
  · exact takes_pure ⟨nil, rfl⟩

lemma within_comprehension {disjunction : Reader Expression} (hp : Faithful p)
    (hd : Faithful disjunction) : Within Balanced (comprehension p disjunction) :=
  within_whileFound ((takes_comprehensionClause hp hd).mono fun _ _ hw => hw.1)

lemma takes_comprehension {disjunction : Reader Expression} {word closing : String}
    (hword : word ≠ "if") (hp : Faithful p) (hd : Faithful disjunction)
    (hclosing : (Kind.mark closing).closes = true) {α : Type} (a : α) :
    Takes [.keyword word] (do comprehension p disjunction; mark closing; return a) fun a' w =>
      a' = a ∧ Content Loops w := by
  have hclause := takes_comprehensionClause hp hd
  have hfirst : Takes [.keyword word] (comprehensionClause p disjunction) fun b w =>
      Balanced w ∧ if b then Loops w else w = [] := by
    refine hclause.anyhow.agrees.mono ?_
    rintro b w ⟨⟨hw, hfound⟩, hahead⟩
    refine ⟨hw, ?_⟩
    cases b with
    | false => exact hfound
    | true =>
      refine hfound.resolve_right fun hif => ?_
      cases w with
      | nil => cases hif
      | cons k w =>
        cases hif
        simp [hword, hword.symm] at hahead
  refine Takes.bind_ahead (takes_whileFound_ahead (L := Balanced) hfirst
    (hclause.mono fun _ _ hw => hw.1)) fun _ w hw => ?_
  obtain ⟨b, u, v, rfl, ⟨hu, hfound⟩, hv, hstop⟩ := hw
  cases b with
  | false =>
    obtain rfl : u = [] := hfound
    obtain rfl := hstop rfl
    exact Takes.bind (P := fun _ _ => False) (takes_expect_of_ne (by simp)) fun _ _ h => h.elim
  | true =>
    obtain ⟨t, ht⟩ : Loops u := hfound
    refine takes_expect_bind (takes_pure ⟨rfl, u ++ v, .mark closing, by simp, append hu hv,
      hclosing, t ++ v, ?_⟩)
    rcases ht with rfl | rfl
    · exact Or.inl rfl
    · exact Or.inr rfl

/-! ### Brackets -/

lemma takes_atComprehension_bind {β : Type} {f : Bool → Reader β} {Q : β → List Kind → Prop}
    (hyes : ∀ word, word ≠ "if" → Takes [.keyword word] (f true) Q) (hno : Takes [] (f false) Q) :
    Takes [] (atComprehension >>= f) Q := by
  unfold atComprehension
  rw [bind_assoc]
  refine takes_peek_bind hno fun k => ?_
  split
  · next word heq =>
    cases heq
    rw [pure_bind]
    cases hword : (decide (word = "for") || decide (word = "async")) with
    | true =>
      refine hyes word ?_
      rintro rfl
      simp at hword
    | false => exact hno.anyhow
  · exact hno.anyhow

lemma within_atComprehension : Within Balanced atComprehension := by
  rw [← bind_pure atComprehension]
  exact takes_atComprehension_bind (fun _ _ => takes_pure nil) (takes_pure nil)

lemma bracketShape_of_loops {opening : String} {w v : List Kind} (hw : Unbroken w) (hv : Loops v) :
    bracketShape opening (w ++ v) = .other := by
  have hfor : Nesting.standsIn (.keyword "for") ⟨0, 0⟩ (w ++ v) = true := by
    rw [Nesting.standsIn_append rfl (hw.track 0)]
    obtain ⟨t, rfl | rfl⟩ := hv <;>
      simp [Nesting.standsIn_cons, Nesting.outermost, Nesting.next, Kind.opens, Kind.closes]
  rw [bracketShape, bracketTexts?, if_pos hfor]

lemma takes_atStar_bind {β : Type} {f : Bool → Reader β} {Q : β → List Kind → Prop}
    (h : ∀ star, Takes [] (f star) Q) : Takes [] (atStar >>= f) Q := by
  unfold atStar
  rw [bind_assoc]
  refine takes_peek_bind (h _) fun k => ?_
  rw [pure_bind]
  exact (h _).anyhow

lemma content_items {opening closing : String} {first : Expression} {items : List Expression}
    {w : List Kind} {ws : List (List Kind)} {trailing : Bool}
    (hopening : opening = "[" ∨ opening = "(") (hclosing : (Kind.mark closing).closes = true)
    (hw : first.Written w) (hws : List.Forall₂ Written items ws) :
    Content ((ofItems (first :: items)).shape = bracketShape opening ·)
      (w ++ .mark "," :: (commaList ws trailing ++ [.mark closing])) := by
  obtain ⟨trailing', hcontent, hmore⟩ := exists_commaList w ws trailing
  have hall := List.Forall₂.cons hw hws
  refine ⟨commaList (w :: ws) trailing', .mark closing, by simp [← hcontent], ?_, hclosing, ?_⟩
  · exact (listed_commaList (unbroken_of_written hall) trailing').1
  · refine (bracketShape_commaList (by simp) ?_ hall).symm
    exact hopening.imp_right fun hround => ⟨hround, hmore⟩

/-- What stands in round or square brackets behind the opening one: a comprehension, items, or a
single item, of which the brackets tell what becomes. -/
lemma takes_bracketItems {opening closing : String} {single : Expression → Expression}
    (hopening : opening = "[" ∨ opening = "(") (hclosing : (Kind.mark closing).closes = true)
    (hsingle : ∀ e w, Written e w → (single e).shape = bracketShape opening w) (h : l.Faithful) :
    Takes [] (do
      let star ← atStar
      let first ← starred l.whole
      if !star && (← atComprehension) then
        comprehension l.primary l.disjunction
        mark closing
        return plain
      else if ← acceptMark "," then
        let (items, _) ← itemsUpTo closing (starred l.whole)
        return ofItems (first :: items)
      else
        mark closing
        return single first) fun e w => Content (e.shape = bracketShape opening ·) w := by
  have hfirst := faithful_starred h.whole
  refine takes_atStar_bind fun star => hfirst.bind fun e w hw => ?_
  have hitems : Takes [] (do
      if ← acceptMark "," then
        let (items, _) ← itemsUpTo closing (starred l.whole)
        return ofItems (e :: items)
      else
        mark closing
        return single e) fun e v => Content (e.shape = bracketShape opening ·) (w ++ v) := by
    refine takes_accept_bind ((takes_itemsUpTo closing hfirst).bind fun r v hv => ?_)
      (takes_expect_bind (takes_pure ?_))
    · obtain ⟨ws, hws, rfl⟩ := hv
      exact takes_pure (by simpa using content_items hopening hclosing hw hws)
    · exact ⟨w, .mark closing, rfl, hw.unbroken.balanced, hclosing, hsingle e w hw⟩
  refine takes_atComprehension_bind (fun word hword => ?_) ?_
  · cases star with
    | false =>
      refine (takes_comprehension hword h.primary h.disjunction hclosing plain).mono ?_
      rintro e' v ⟨rfl, content, k, rfl, hcontent, hk, hloops⟩
      exact ⟨w ++ content, k, by simp, append hw.unbroken.balanced hcontent, hk,
        (bracketShape_of_loops hw.unbroken hloops).symm⟩
    | true => exact hitems.anyhow
  · cases star <;> exact hitems

lemma takes_parenthesized (h : l.Faithful) :
    Takes [] (parenthesized l) fun e w => Content (e.shape = bracketShape "(" ·) w := by
  refine takes_accept_bind (takes_pure ⟨[], .mark ")", rfl, nil, rfl, rfl⟩)
    (takes_accept_bind ?_ ?_)
  · refine (takes_yieldRest h.whole).bind fun e w hw => takes_expect_bind (takes_pure ?_)
    refine ⟨.keyword "yield" :: w, .mark ")", by simp, cons rfl hw.1.1, rfl, ?_⟩
    simp [hw.2, bracketShape, bracketTexts?, isTuple]
  · refine takes_bracketItems (Or.inr rfl) rfl (fun e w hw => ?_) h
    exact (bracketShape_single hw.unbroken hw.shaped.ne_nil).symm

lemma takes_bracketed (h : l.Faithful) :
    Takes [] (bracketed l) fun e w => Content (e.shape = bracketShape "[" ·) w := by
  refine takes_accept_bind (takes_pure ⟨[], .mark "]", rfl, nil, rfl, rfl⟩) ?_
  refine takes_bracketItems (Or.inl rfl) rfl (fun e w hw => ?_) h
  have hlist : bracketShape "[" (commaList [w] false) = .display (Expression.texts [e]) :=
    bracketShape_commaList (by simp) (Or.inl rfl) (.cons hw .nil)
  simpa [commaList, ofItems] using hlist.symm

lemma within_entry (h : l.Faithful) : Within Balanced (entry l) :=
  within_accept_bind rfl (within_bind h.disjunction.balanced fun _ => within_pure _)
    (within_bind h.whole.balanced fun _ => within_bind (within_expect rfl) fun _ =>
      within_bind h.whole.balanced fun _ => within_pure _)

lemma closes_bracedRest {α : Type} {item : Reader α} (h : Within Balanced item) :
    Closes (fun _ => True) (bracedRest item) :=
  closes_accept_bind rfl ((closes_itemsUpTo rfl h).then_pure trivial) (closes_expect rfl)

lemma closes_braced (h : l.Faithful) : Closes (·.shape = .other) (braced l) := by
  have hstarred := (faithful_starred h.whole).balanced
  have hcomprehension := within_comprehension h.primary h.disjunction
  refine takes_accept_bind (takes_pure ⟨rfl, closing_singleton rfl⟩) ?_
  refine closes_accept_bind rfl ?_ (takes_atStar_bind fun star => closes_bind hstarred fun _ => ?_)
  · exact closes_bind h.disjunction.balanced fun _ =>
      (closes_bracedRest (within_entry h)).then_pure rfl
  · have hrest : ∀ pair : Bool, Closes (·.shape = .other) (do
        if !star && (← atComprehension) then
          comprehension l.primary l.disjunction
          mark "\x7d"
        else if pair then bracedRest (entry l)
        else bracedRest (starred l.whole)
        return plain) := fun pair =>
      closes_bind within_atComprehension fun _ => closes_ite
        (closes_bind hcomprehension fun _ => (closes_expect rfl).then_pure rfl)
        (closes_ite ((closes_bracedRest (within_entry h)).then_pure rfl)
          ((closes_bracedRest hstarred).then_pure rfl))
    cases star with
    | true => exact hrest false
    | false =>
      exact closes_accept_bind rfl (closes_bind h.whole.balanced fun _ => hrest true) (hrest false)

/-! ### Operands -/

lemma within_argument (h : l.Faithful) : Within Balanced (argument l) := by
  have hwhole : Within Balanced (do let _ ← l.whole; return ()) :=
    within_bind h.whole.balanced fun _ => within_pure _
  refine within_accept_bind rfl hwhole (within_accept_bind rfl hwhole ?_)
  refine takes_peekTwo_bind (fun _ => hwhole) fun k o => ?_
  split
  · next heq =>
    cases heq
    exact takes_advance_bind (takes_advance_bind
      (hwhole.mono fun _ _ hw => cons rfl (cons rfl hw)))
  · exact hwhole.anyhow

lemma closes_arguments (h : l.Faithful) : Closes (fun _ => True) (arguments l) := by
  have hargument := within_argument h
  refine takes_accept_bind (takes_pure ⟨trivial, closing_singleton rfl⟩) ?_
  exact closes_bind hargument fun _ => closes_bind within_atComprehension fun _ => closes_ite
    (closes_bind (within_comprehension h.primary h.disjunction) fun _ => closes_expect rfl)
    (closes_accept_bind rfl ((closes_itemsUpTo rfl hargument).then_pure trivial)
      (closes_expect rfl))

lemma within_subscript (h : l.Faithful) : Within Balanced (subscript l) := by
  have hend : Within Balanced (optionalIf begins l.whole) := within_optionalIf h.whole.balanced
  refine within_bind (within_optionalIf (faithful_starred h.whole).balanced) fun index => ?_
  have hnone : Within Balanced (if index.isNone then fail else return ()) :=
    within_ite within_fail (within_pure _)
  refine within_accept_bind rfl (within_bind hend fun _ => ?_) hnone
  exact within_accept_bind rfl (within_bind hend fun _ => within_pure _) (within_pure _)

lemma closes_subscripts (h : l.Faithful) : Closes (fun _ => True) (subscripts l) := by
  have hitems : Closes (fun _ => True) (do let _ ← itemsUpTo "]" (subscript l)) :=
    (closes_itemsUpTo rfl (within_subscript h)).then_pure trivial
  exact closes_bind within_peek fun _ => closes_ite (closes_bind within_fail fun _ => hitems) hitems

lemma takes_trailer (h : l.Faithful) :
    Takes [] (trailer l) fun o w => if o.isSome then w ≠ [] ∧ Unbroken w else w = [] := by
  refine takes_accept_bind ?_ (takes_accept_bind ?_ (takes_accept_bind ?_ (takes_pure rfl)))
  · refine takes_name.bind fun text w hw => takes_pure ?_
    subst hw
    exact ⟨by simp, cons rfl (singleton rfl)⟩
  · refine Takes.bind (closes_arguments h) fun _ w hw => takes_pure ?_
    rw [List.append_nil]
    exact ⟨by simp, hw.2.unbroken rfl⟩
  · refine Takes.bind (closes_subscripts h) fun _ w hw => takes_pure ?_
    rw [List.append_nil]
    exact ⟨by simp, hw.2.unbroken rfl⟩

lemma takes_trailers (h : l.Faithful) (n : Nat) {e : Expression} {w : List Kind}
    (hw : e.Written w) : Takes [] (trailers l n e) fun e' v => e'.Written (w ++ v) := by
  induction n generalizing e w with
  | zero => exact takes_pure (by simpa using hw)
  | succ n ih =>
    refine (takes_trailer h).bind fun o u hu => ?_
    cases o with
    | none =>
      obtain rfl : u = [] := hu
      exact takes_pure (by simpa using hw)
    | some assignable =>
      obtain ⟨hne, hu⟩ : u ≠ [] ∧ Unbroken u := hu
      have hmore : Written ⟨.other, assignable⟩ (w ++ u) :=
        ⟨append hw.unbroken hu, hw.shaped.append hne⟩
      simpa using ih hmore

lemma written_word {k : Kind} (e : Expression) (hk : k.plain = true) (hshape : e.shape = .other)
    (h : ∀ v, shapeOf (k :: v) = .other) {w : List Kind} (hw : Unbroken w) : e.Written (k :: w) :=
  ⟨cons hk hw, hshape ▸ shaped_other h w⟩

lemma written_bracket {opening : String} {e : Expression} {w : List Kind}
    (hopening : (Kind.mark opening).opens = true)
    (hw : Content (e.shape = bracketShape opening ·) w) : e.Written (.mark opening :: w) := by
  refine ⟨hw.closing.unbroken hopening, ?_⟩
  obtain ⟨content, k, rfl, hcontent, hk, hshape⟩ := hw
  rw [hshape]
  exact shaped_bracket hcontent hk

lemma faithful_atom (h : l.Faithful) : Faithful (atom l) := by
  refine takes_peek_bind takes_fail fun k => ?_
  split
  · next heq =>
    cases heq
    exact takes_advance_bind (takes_pure ⟨singleton rfl, shaped_name _⟩)
  · next heq =>
    cases heq
    exact takes_advance_bind (takes_pure (written_word _ rfl rfl shapeOf_number nil))
  · exact (faithful_strings h.whole).anyhow
  · next word heq =>
    cases heq
    refine takes_ite (fun hword => takes_advance_bind (takes_pure ?_)) fun _ => takes_fail
    refine written_word _ ?_ rfl (shapeOf_keyword word) nil
    have hwords : word ∈ ["None", "True", "False"] := by simpa using hword
    clear hword
    revert word
    decide
  · next m heq =>
    cases heq
    refine takes_ite ?_ fun _ => takes_ite ?_ fun _ => takes_ite ?_ fun _ => takes_ite ?_ fun _ =>
      takes_fail
    · rintro rfl
      exact takes_advance_bind (takes_pure
        (written_word _ rfl rfl (shapeOf_mark (by decide) (by decide)) nil))
    · rintro rfl
      exact takes_advance_bind ((takes_parenthesized h).mono fun _ _ hw => written_bracket rfl hw)
    · rintro rfl
      exact takes_advance_bind ((takes_bracketed h).mono fun _ _ hw => written_bracket rfl hw)
    · rintro rfl
      refine takes_advance_bind (Takes.mono (closes_braced h) fun e w hw => ?_)
      exact ⟨hw.2.unbroken rfl, hw.1 ▸ shaped_other (shapeOf_mark (by decide) (by decide)) w⟩
  · exact takes_fail

lemma faithful_primaryOf (h : l.Faithful) : Faithful (primaryOf l) :=
  (faithful_atom h).bind fun _ _ hw => takes_size_bind fun n => takes_trailers h n hw

/-! ### Operators -/

/-- Found or not, and if so, a text that stands before or between operands. -/
def Joint (found : Bool) (w : List Kind) : Prop :=
  if found then w ≠ [] ∧ Unbroken w else w = []

lemma joint_word {k : Kind} (hk : k.plain = true) : Joint true [k] :=
  ⟨by simp, singleton hk⟩

lemma takes_operator : Takes [] operator Joint := by
  refine takes_peekTwo_bind (fun _ => takes_pure rfl) fun k o => ?_
  split
  · next m heq =>
    cases heq
    refine takes_ite (fun hm => takes_advance_bind (takes_pure (joint_word ?_))) fun _ => takes_pure rfl
    have hmarks : m ∈ arithmeticMarks ++ comparisonMarks := by simpa using hm
    clear hm
    revert m
    decide
  · next heq =>
    cases heq
    exact takes_advance_bind (takes_pure (joint_word rfl))
  · next heq =>
    cases heq
    exact takes_advance_bind (takes_advance_bind (takes_pure ⟨by simp, cons rfl (singleton rfl)⟩))
  · next heq =>
    cases heq
    refine takes_advance_bind (takes_accept_bind ?_ ?_)
    · exact takes_pure ⟨by simp, cons rfl (singleton rfl)⟩
    · exact takes_pure (joint_word rfl)
  · exact takes_pure rfl

lemma takes_connective : Takes [] connective Joint := by
  refine takes_accept_bind (takes_pure (joint_word rfl)) ((takes_accept _).mono fun b w hw => ?_)
  subst hw
  cases b with
  | true => exact joint_word rfl
  | false => rfl

lemma faithful_chain {joint : Reader Bool} (hp : Faithful p) (hjoint : Takes [] joint Joint) :
    Faithful (do
      let e ← p
      if ← joint then
        let _ ← p
        whileFound do
          if ← joint then
            let _ ← p
            return true
          else return false
        return plain
      else return e) := by
  have hjoints : Within Unbroken joint := by
    refine hjoint.mono fun b w hw => ?_
    cases b with
    | true => exact hw.2
    | false => exact (show w = [] from hw) ▸ nil
  refine hp.bind fun e w hw => hjoint.bind fun b u hu => ?_
  cases b with
  | false =>
    obtain rfl : u = [] := hu
    exact takes_pure (by simpa using hw)
  | true =>
    obtain ⟨hne, hu⟩ : u ≠ [] ∧ Unbroken u := hu
    have hrounds := within_whileFound (within_bind hjoints fun b =>
      within_ite (c := b = true) (within_bind hp.within fun _ => within_pure true)
        (within_pure false))
    refine hp.bind fun _ v hv => Takes.bind hrounds fun _ x hx => takes_pure ?_
    rw [List.append_nil]
    exact ⟨append hw.unbroken (append hu (append hv.unbroken hx)), hw.shaped.append (by simp [hne])⟩

/-- Found or not, and if so, a word that stands before an operand. -/
def Sign (found : Bool) (w : List Kind) : Prop :=
  if found then ∃ k, w = [k] ∧ k.plain = true ∧ ∀ v, shapeOf (k :: v) = .other else w = []

lemma faithful_signs {sign : Reader Bool} (hp : Faithful p) (hsign : Takes [] sign Sign) :
    Faithful (do
      if ← sign then
        whileFound sign
        let _ ← p
        return plain
      else p) := by
  have hsigns : Within Unbroken sign := by
    refine hsign.mono fun b w hw => ?_
    cases b with
    | true =>
      obtain ⟨k, rfl, hk, -⟩ := hw
      exact singleton hk
    | false => exact (show w = [] from hw) ▸ nil
  refine hsign.bind fun b u hu => ?_
  cases b with
  | false =>
    obtain rfl : u = [] := hu
    exact hp
  | true =>
    obtain ⟨k, rfl, hk, hshape⟩ := hu
    refine Takes.bind (within_whileFound hsigns) fun _ v hv => hp.bind fun e w hw => takes_pure ?_
    rw [List.append_nil, List.singleton_append]
    exact written_word _ hk rfl hshape (append hv hw.unbroken)

lemma takes_sign : Takes [] sign Sign := by
  refine takes_peek_bind (takes_pure rfl) fun k => ?_
  split
  · next m heq =>
    cases heq
    refine takes_ite (fun hm => takes_advance_bind (takes_pure ?_)) fun _ => takes_pure rfl
    have hmarks : m ∈ ["+", "-", "~"] := by simpa using hm
    refine ⟨_, rfl, ?_, shapeOf_mark ?_ ?_⟩ <;>
    · clear hm
      revert m
      decide
  · next heq =>
    cases heq
    exact takes_advance_bind (takes_pure ⟨_, rfl, rfl, shapeOf_keyword "await"⟩)
  · exact takes_pure rfl

lemma takes_not : Takes [] (acceptKeyword "not") Sign := by
  refine (takes_accept _).mono fun b w hw => ?_
  subst hw
  cases b with
  | true => exact ⟨_, rfl, rfl, shapeOf_keyword "not"⟩
  | false => rfl

lemma faithful_disjunctionOf (h : l.Faithful) : Faithful (disjunctionOf l) := by
  have hsigned : Faithful (signed l) := faithful_signs (faithful_primaryOf h) takes_sign
  have hcomparison : Faithful (comparison l) := faithful_chain hsigned takes_operator
  have hinversion : Faithful (inversion l) := faithful_signs hcomparison takes_not
  exact faithful_chain hinversion takes_connective

/-! ### Functions without a name -/

lemma within_parameter {L : List Kind → Prop} {letter : Kind → Bool} [IsLanguage L letter]
    (hL : ∀ w, Unbroken w → L w) (heven : ∀ k, k.even = true → letter k = true)
    {annotated : Bool} (hcolon : annotated = true → letter (.mark ":") = true) (h : l.Faithful) :
    Within L (parameter l annotated) := by
  have hwhole : Within L l.whole := h.whole.within.mono fun _ => hL
  have hdefault : Within L (do if ← acceptMark "=" then let _ ← l.whole) :=
    within_accept_bind (heven _ rfl) (within_bind hwhole fun _ => within_pure _) (within_pure _)
  have hnamed : ∀ n, Takes [.name n] (do
      advance
      if annotated then
        if ← acceptMark ":" then
          let _ ← starred l.whole
      if ← acceptMark "=" then
        let _ ← l.whole) fun _ w => L w := by
    intro n
    refine takes_advance_bind (Takes.mono (P := fun _ w => L w) ?_ fun _ w hw =>
      cons (heven _ rfl) hw)
    cases annotated with
    | false => exact hdefault
    | true =>
      have hannotation := (faithful_starred h.whole).within.mono fun _ => hL
      exact within_accept_bind (hcolon rfl) (within_bind hannotation fun _ => hdefault) hdefault
  refine within_accept_bind (heven _ rfl) (within_pure _) ?_
  refine within_bind (within_accept (heven _ rfl)) fun star => ?_
  extract_lets value rest
  have hrest : ∀ doubleStar, Within L (rest doubleStar) := by
    intro doubleStar
    have hbare : Within L (if star && !doubleStar then return () else fail) :=
      within_ite (within_pure _) within_fail
    refine takes_peek_bind hbare fun k => ?_
    split
    · next heq =>
      cases heq
      exact hnamed _
    · exact hbare.anyhow
  exact within_ite (within_bind (within_pure _) hrest)
    (within_bind (within_accept (heven _ rfl)) hrest)

lemma takes_lambdaRest (h : l.Faithful) :
    Takes [] (lambdaRest l) fun e w => Written e (.keyword "lambda" :: w) := by
  have hbody : ∀ w, Enclosed w → Takes [] (do let _ ← l.whole; return plain) fun e v =>
      Written e (.keyword "lambda" :: (w ++ (.mark ":" :: v))) := by
    intro w hw
    refine h.whole.bind fun _ v hv => takes_pure ⟨?_, shaped_other (shapeOf_keyword "lambda") _⟩
    rw [List.append_nil]
    exact hw.unbroken hv.unbroken hv.shaped.ne_nil
  refine takes_accept_bind (hbody [] nil) (Takes.bind (within_items (L := Enclosed) rfl
    (within_parameter (fun _ hw => hw.enclosed) (fun _ hk => hk) nofun h)) fun _ w hw => ?_)
  exact takes_expect_bind (hbody w hw)

lemma faithful_wholeOf (h : l.Faithful) : Faithful (wholeOf l) := by
  have hdisjunction := faithful_disjunctionOf h
  have hcondition : Faithful (do
      let e ← disjunctionOf l
      if ← acceptKeyword "if" then
        let _ ← disjunctionOf l
        keyword "else"
        let _ ← l.whole
        return plain
      else return e) := by
    refine hdisjunction.bind fun e w hw => takes_accept_bind ?_ (takes_pure (by simpa using hw))
    refine hdisjunction.bind fun _ u hu => takes_expect_bind (h.whole.bind fun _ v hv =>
      takes_pure ⟨?_, hw.shaped.append (by simp)⟩)
    exact append hw.1 (cons rfl (append hu.1 (cons rfl (append hv.1 nil))))
  refine takes_peekTwo_bind (fun _ => hcondition) fun k o => ?_
  split
  · next heq =>
    cases heq
    exact takes_advance_bind (takes_lambdaRest h).anyhow
  · next heq =>
    cases heq
    refine takes_advance_bind (takes_advance_bind (h.whole.bind fun _ w hw => takes_pure ?_))
    rw [List.append_nil]
    exact ⟨cons rfl (cons rfl hw.unbroken), (shaped_name _).append (by simp)⟩
  · exact hcondition.anyhow

theorem levels_faithful (n : Nat) : (levels n).Faithful := by
  induction n with
  | zero => exact ⟨takes_fail, takes_fail, takes_fail⟩
  | succ n ih => exact ⟨faithful_wholeOf ih, faithful_disjunctionOf ih, faithful_primaryOf ih⟩

lemma takes_levelsHere_bind {β : Type} {f : Levels → Reader β} {Q : β → List Kind → Prop}
    (h : ∀ l : Levels, l.Faithful → Takes [] (f l) Q) : Takes [] (levelsHere >>= f) Q :=
  takes_size_bind fun n => h _ (levels_faithful (n + 1))

/-- What is read as an expression is written as one. -/
theorem faithful_read : Faithful read :=
  takes_levelsHere_bind fun _ h => h.whole

/-! ### Words that begin no expression -/

section Beginnings

variable {word : String} (hword : begins (.keyword word) = false)

include hword

lemma refuses_primaryOf : Refuses (.keyword word) (primaryOf l) := by
  refine Refuses.bind (takes_peek_ahead (takes_ite (fun hconstant => ?_) fun _ => takes_fail))
  have hwords : word ∈ ["None", "True", "False"] := by simpa using hconstant
  refine absurd hword ?_
  clear hconstant hword
  revert word
  decide

lemma refuses_disjunctionOf : Refuses (.keyword word) (disjunctionOf l) := by
  have hsign : Declines (.keyword word) sign := by
    refine takes_peek_ahead ?_
    split
    · next heq => cases heq
    · next heq =>
      cases heq
      exact absurd hword (by decide)
    · exact takes_pure ⟨rfl, rfl⟩
  have hsigned : Refuses (.keyword word) (signed l) := hsign.bind (refuses_primaryOf hword)
  have hnot : Declines (.keyword word) (acceptKeyword "not") := by
    refine declines_accept ?_
    rintro ⟨rfl⟩
    exact absurd hword (by decide)
  exact (hnot.bind hsigned.bind).bind

lemma refuses_wholeOf : Refuses (.keyword word) (wholeOf l) := by
  refine takes_peekTwo_ahead fun o => ?_
  split
  · next heq =>
    cases heq
    exact absurd hword (by decide)
  · next heq => cases heq
  · exact (refuses_disjunctionOf hword).bind

lemma refuses_read : Refuses (.keyword word) read :=
  refuses_size_bind fun _ => refuses_wholeOf hword

lemma refuses_listOrYield (hyield : word ≠ "yield") :
    Refuses (.keyword word) (listOrYield read) := by
  refine (declines_accept (by simpa using hyield)).bind (Refuses.bind (refuses_items ?_))
  exact (declines_accept (by simp)).bind (refuses_read hword)

end Beginnings

end Expression

end ImportFence.Source
