import ImportFence.Proofs.Expressions
import ImportFence.Proofs.ImportSyntax

/-!
# Simple statements

What the simple statements of a line are can be told from its tokens. The line is cut at its
semicolons; a piece is an import statement if it holds the word `import`, and it makes up the public
interface if it assigns a list or tuple that is written out to the name of the interface. Reading a
line gives just these statements, in their order.
-/

namespace ImportFence.Source

lemma displayTexts?_eq (w : List Kind) :
    displayTexts? w = match shapeOf w with
      | .display texts => some texts
      | _ => none := by
  cases hliteral : literalText? w with
  | some content =>
    rw [shapeOf_of_literal hliteral]
    cases w with
    | nil => rfl
    | cons k w =>
      cases k with
      | stringOpen => rfl
      | _ => cases hliteral
  | none =>
    cases hdisplay : displayTexts? w with
    | some texts => rw [shapeOf_of_display hliteral hdisplay]
    | none =>
      unfold shapeOf
      rw [hliteral, hdisplay]
      split
      · next h => split at h <;> cases h
      · rfl

namespace Statement

open Reader IsLanguage Expression

/-- The statement of the public interface that tokens are, if they are one: they assign a list or
tuple that is written out to its name, with an annotation or not, or extend it. -/
def interfaceOf? : List Kind → Option InterfaceStatement
  | .name n :: .mark m :: right =>
    if n ≠ interfaceName then none
    else if augmentedMarks.contains m then (displayTexts? right).map (⟨true, ·⟩)
    else if m = "=" then (displayTexts? right).map (⟨false, ·⟩)
    else if m = ":" then
      ((Nesting.behind? (.mark "=") ⟨0, 0⟩ right).bind displayTexts?).map (⟨false, ·⟩)
    else none
  | _ => none

/-- The statement that tokens are if they import nothing. -/
def ofKinds (w : List Kind) : Statement :=
  (interfaceOf? w).elim .plain .interface

lemma within_read : Within Settled Expression.read :=
  faithful_read.within.mono fun _ _ hw => hw.settled

/-! ### Assignments -/

lemma ofAssignment_eq {left right : Expression} {r : List Kind} (extending : Bool)
    (hright : Shaped right.shape r) :
    ofAssignment left right extending = match left.shape with
      | .name n => if n = interfaceName then
          ((displayTexts? r).map (⟨extending, ·⟩)).elim .plain .interface else .plain
      | _ => .plain := by
  rw [ofAssignment, displayTexts?_eq, ← hright.eq]
  cases left.shape with
  | name n => cases right.shape <;> simp
  | _ => rfl

/-- A mark that tells statements of the interface does not stand behind the first name of a list. -/
lemma interfaceOf?_of_listed {w v : List Kind} {n m : String}
    (hlisted : Listed (.name n :: .mark m :: w)) : interfaceOf? (.name n :: .mark m :: v) = none := by
  have hm : (Kind.mark m).divides = true → m = "," := by
    intro hdivides
    by_contra hcomma
    have hstands := hlisted.divided (.mark m) hdivides (by simpa using hcomma) (by simp)
    simp [Nesting.standsIn_cons, Nesting.next, Nesting.outermost, Kind.opens, Kind.closes]
      at hstands
  have haugmented : m ∉ augmentedMarks := by
    intro h
    obtain rfl := hm (by simp [Kind.divides, h])
    exact absurd h (by decide)
  have heq : m ≠ "=" := by
    rintro rfl
    exact absurd (hm rfl) (by decide)
  have hcolon : m ≠ ":" := by
    rintro rfl
    exact absurd (hm rfl) (by decide)
  simp [interfaceOf?, haugmented, heq, hcolon]

lemma eq_of_shapeOf_name {w : List Kind} {n : String} (h : shapeOf w = .name n) : w = [.name n] := by
  unfold shapeOf at h
  split at h
  · cases h
    rfl
  · split at h <;> cases h

lemma interfaceOf?_append {w : List Kind} (hlisted : Listed w) (hne : w ≠ []) (m : String)
    (right : List Kind) :
    interfaceOf? (w ++ .mark m :: right) = match shapeOf w with
      | .name n => interfaceOf? (.name n :: .mark m :: right)
      | _ => none := by
  split
  · next n hname => rw [eq_of_shapeOf_name hname, List.singleton_append]
  · next hother =>
    match w with
    | [] => exact absurd rfl hne
    | [k] =>
      cases k with
      | name n => exact absurd rfl (hother n)
      | _ => rfl
    | k :: l :: w =>
      cases k with
      | name n =>
        cases l with
        | mark m' => exact interfaceOf?_of_listed hlisted
        | _ => rfl
      | _ => rfl

lemma ofKinds_of_listed {w : List Kind} (hlisted : Listed w) : ofKinds w = .plain := by
  have hnone : interfaceOf? w = none := by
    unfold interfaceOf?
    split
    · exact interfaceOf?_of_listed hlisted
    · rfl
  rw [ofKinds, hnone]
  rfl

lemma takes_rightSide (n : Nat) :
    Takes [] (rightSide n) fun e w => Settled w ∧ Shaped e.shape w := by
  induction n with
  | zero => exact takes_fail
  | succ n ih =>
    refine (takes_listOrYield faithful_read).bind fun e w hw => ?_
    have hsettled := hw.1.settled
    refine takes_accept_bind ?_ (takes_pure (by simpa using ⟨hsettled, hw.2⟩))
    rw [if_pos rfl]
    refine takes_ite (fun _ => takes_fail_bind) fun _ => ?_
    refine ih.bind fun _ v hv => takes_pure ⟨?_, hw.2.append (by simp)⟩
    exact append hsettled (cons rfl (append hv.1 nil))

lemma takes_acceptAugmented : Takes [] acceptAugmented fun b w =>
    if b then ∃ m ∈ augmentedMarks, w = [.mark m] else w = [] := by
  refine takes_peek_bind (takes_pure rfl) fun k => ?_
  split
  · next m heq =>
    cases heq
    refine takes_ite (fun hm => takes_advance_bind (takes_pure ⟨m, ?_, rfl⟩)) fun _ => takes_pure rfl
    simpa using hm
  · exact takes_pure rfl

/-- An assignment to a list of expressions is the statement that its tokens show, if this holds of
an assignment to the name of the interface. -/
lemma ofAssignment_eq_ofKinds {left right : Expression} {w r rest : List Kind} {extending : Bool}
    {m : String} (hlisted : Listed w) (hleft : Shaped left.shape w) (hright : Shaped right.shape r)
    (hname : interfaceOf? (.name interfaceName :: .mark m :: rest) =
      (displayTexts? r).map (⟨extending, ·⟩)) :
    ofAssignment left right extending = ofKinds (w ++ .mark m :: rest) := by
  rw [ofAssignment_eq extending hright, ofKinds, interfaceOf?_append hlisted hleft.ne_nil,
    ← hleft.eq]
  cases left.shape with
  | name n =>
    by_cases hn : n = interfaceName
    · subst hn
      simp [hname]
    · simp [interfaceOf?, hn]
  | _ => rfl

/-- What follows the left side of a statement makes it the statement that its tokens show. -/
def Completes (w : List Kind) (s : Statement) (v : List Kind) : Prop :=
  Settled v ∧ s = ofKinds (w ++ v)

lemma takes_assignment {left : Expression} {w : List Kind} (hlisted : Listed w)
    (hleft : Shaped left.shape w) (n : Nat) {m : String} (extending : Bool) (front : List Kind)
    (hfront : Settled front) (hm : (Kind.mark m).stays = true)
    (hname : ∀ r, interfaceOf? (.name interfaceName :: .mark m :: (front ++ r)) =
      (displayTexts? r).map (⟨extending, ·⟩)) :
    Takes [] (do return ofAssignment left (← rightSide n) extending) fun s v =>
      Completes w s (.mark m :: (front ++ v)) := by
  refine (takes_rightSide n).bind fun right r hr => takes_pure ?_
  rw [List.append_nil]
  exact ⟨(append hfront hr.1).behind hm (by simp [hr.2.ne_nil]),
    ofAssignment_eq_ofKinds hlisted hleft hr.2 (hname r)⟩

lemma takes_expressionStatement :
    Takes [] expressionStatement fun s w => Settled w ∧ s = ofKinds w := by
  refine (takes_listOrYield faithful_read).bind fun left w hw => takes_size_bind fun n => ?_
  obtain ⟨hlisted, hleft⟩ := hw
  suffices hcompletes : Takes [] _ (Completes w) from hcompletes.mono fun s v hv =>
    ⟨append hlisted.settled hv.1, hv.2⟩
  have halone : Completes w .plain [] := by
    refine ⟨nil, ?_⟩
    rw [List.append_nil, ofKinds_of_listed hlisted]
  refine takes_acceptAugmented.bind fun b u hu => ?_
  cases b with
  | true =>
    obtain ⟨m, hm, rfl⟩ := hu
    rw [if_pos rfl]
    refine takes_ite (fun _ => takes_fail_bind) fun _ => ?_
    refine takes_assignment hlisted hleft n true [] nil ?_ fun r => by simp [interfaceOf?, hm]
    revert m
    decide
  | false =>
    obtain rfl : u = [] := hu
    refine takes_accept_bind ?_ (takes_accept_bind ?_ (takes_pure halone))
    · rw [if_pos rfl]
      refine takes_ite (fun _ => takes_fail_bind) fun _ => ?_
      exact takes_assignment hlisted hleft n false [] nil rfl fun r => rfl
    · rw [if_pos rfl]
      refine takes_ite (fun _ => takes_fail_bind) fun _ => ?_
      refine (faithful_starred faithful_read).bind fun annotation a ha => ?_
      have hbehind : ∀ r, Nesting.behind? (.mark "=") ⟨0, 0⟩ (a ++ r) =
          Nesting.behind? (.mark "=") ⟨0, 0⟩ r := Nesting.behind?_append rfl (ha.unbroken.track 0)
      have hsettled := ha.unbroken.settled
      refine takes_accept_bind ?_ (takes_pure ⟨?_, ?_⟩)
      · have hassigned := takes_assignment hlisted hleft n (m := ":") false (a ++ [.mark "="])
          (append hsettled (singleton rfl)) rfl fun r => by
            simp [interfaceOf?, augmentedMarks, hbehind, Nesting.behind?, Nesting.outermost]
        simpa using hassigned
      · exact (append hsettled nil).behind rfl (by simp [ha.shaped.ne_nil])
      · have hnone : interfaceOf? (w ++ .mark ":" :: (a ++ [])) = none := by
          rw [interfaceOf?_append hlisted hleft.ne_nil]
          split
          · simp only [interfaceOf?, hbehind]
            simp [augmentedMarks, Nesting.behind?]
          · rfl
        rw [ofKinds, List.nil_append, hnone]
        rfl

/-! ### Statements with and without a keyword -/

lemma takes_ended {α : Type} {p : Reader α} {P : α → List Kind → Prop} {ahead : List Kind}
    (h : Takes ahead p P) : Takes ahead (ended p) P := by
  have hend : Takes [] atStatementEnd fun _ w => w = [] :=
    takes_peek_bind (takes_pure rfl) fun _ => takes_pure rfl
  refine h.bind fun a w hw => hend.bind fun b v hv => ?_
  subst hv
  exact takes_ite (fun _ => takes_pure (by simpa using hw)) fun _ => takes_fail

lemma within_list : Within Settled (Expression.list Expression.read) :=
  (takes_list faithful_read).mono fun _ _ hw => hw.1.settled

lemma within_expressions {begins : Kind → Bool} :
    Within Settled (items begins Expression.read) :=
  within_items rfl within_read

/-- What the reader takes stays in its statement, and what it gives is fixed. -/
def Gives {α : Type} (a : α) (p : Reader α) : Prop :=
  Takes [] p fun b w => Settled w ∧ b = a

lemma gives_pure {α : Type} (a : α) : Gives a (pure a) :=
  takes_pure ⟨nil, rfl⟩

lemma gives_bind {α β : Type} {p : Reader α} {f : α → Reader β} {b : β}
    (hp : Within Settled p) (hf : ∀ a, Gives b (f a)) : Gives b (p >>= f) :=
  Takes.bind hp fun a _ hw => (hf a).mono fun _ _ hv => ⟨append hw hv.1, hv.2⟩

lemma gives_accept_bind {β : Type} {f : Bool → Reader β} {k : Kind} {b : β}
    (hk : k.settles = true) (hyes : Gives b (f true)) (hno : Gives b (f false)) :
    Gives b (accept k >>= f) :=
  gives_bind (within_accept hk) fun found => by
    cases found with
    | true => exact hyes
    | false => exact hno

lemma Gives.named {p : Reader Statement} {word : String} (hword : word ≠ interfaceName)
    (h : Gives .plain p) : Takes [] (expect (.name word) >>= fun _ => p) fun s w =>
      Settled w ∧ s = ofKinds w := by
  refine takes_expect_bind (h.mono fun s w hw => ⟨cons rfl hw.1, ?_⟩)
  have hnone : interfaceOf? (.name word :: w) = none := by
    unfold interfaceOf?
    split
    · next heq =>
      cases heq
      rw [if_pos hword]
    · rfl
  rw [hw.2, ofKinds, hnone]
  rfl

lemma within_typeParameter : Within Settled typeParameter := by
  have hname : Within Settled name := within_name fun _ => rfl
  have hdefault : Within Settled (do
      if ← acceptMark "=" then
        let _ ← Expression.starred Expression.read) :=
    within_accept_bind rfl (within_bind ((faithful_starred faithful_read).within.mono
      fun _ _ hw => hw.settled) fun _ => within_pure _) (within_pure _)
  refine within_accept_bind rfl (within_bind hname fun _ => hdefault)
    (within_accept_bind rfl (within_bind hname fun _ => hdefault)
      (within_bind hname fun _ => takes_accept_bind ?_ hdefault))
  refine faithful_read.bind fun _ w hw => hdefault.mono fun _ v hv => ?_
  exact (append hw.unbroken.settled hv).behind rfl (by simp [hw.shaped.ne_nil])

lemma within_typeParameters : Within Settled typeParameters :=
  within_accept_bind rfl
    (within_bind (within_items rfl within_typeParameter) fun _ => within_expect rfl) (within_pure _)

lemma takes_openStatement :
    Takes [] openStatement fun s w => Settled w ∧ s = ofKinds w := by
  have hexpression := takes_ended takes_expressionStatement
  have hname : Within Settled name := within_name fun _ => rfl
  have hprint : Gives (.plain : Statement) (do let _ ← items Expression.begins Expression.read; return .plain) :=
    gives_bind within_expressions fun _ => gives_pure _
  have hscope : Gives (.plain : Statement) (do
      if ← acceptKeyword "in" then
        let _ ← items Expression.begins Expression.read
      return .plain) :=
    gives_accept_bind rfl hprint (gives_pure _)
  have hliteral : Within Settled (Expression.stringLiteral Expression.read) :=
    (takes_stringLiteral faithful_read).mono fun _ _ hw => hw.unbroken.settled
  have htype : Gives (.plain : Statement) (do
      let _ ← name
      typeParameters
      mark "="
      let _ ← Expression.read
      return .plain) :=
    gives_bind hname fun _ => gives_bind within_typeParameters fun _ =>
      gives_bind (within_expect rfl) fun _ => gives_bind within_read fun _ => gives_pure _
  refine takes_peek_bind hexpression fun k => Takes.anyhow ?_
  split
  · exact takes_either hexpression (takes_ended (hprint.named (by decide)))
  · refine takes_either hexpression (takes_ended (Gives.named (by decide) ?_))
    refine gives_bind within_peek fun o => ?_
    split
    · exact gives_bind hliteral fun _ => hscope
    · exact gives_bind hname fun _ => hscope
  · exact takes_either hexpression (takes_ended (htype.named (by decide)))
  · exact hexpression

lemma takes_keywordRest (word : String) : Takes [] (keywordRest word) fun o w =>
    (∃ form : ImportForm, form.request? = o ∧ form.kinds = .keyword word :: w) ∨
      o = none ∧ word ≠ "import" ∧ Settled w := by
  have hother : ∀ {p : Reader (Option Request)}, word ≠ "import" → Gives none p →
      Takes [] p fun o w => (∃ form : ImportForm, form.request? = o ∧ form.kinds = .keyword word :: w) ∨
        o = none ∧ word ≠ "import" ∧ Settled w :=
    fun hword hp => hp.mono fun o w hw => Or.inr ⟨hw.2, hword, hw.1⟩
  have hnames : Within Settled (items (fun _ => true) name) :=
    within_items rfl (within_name fun _ => rfl)
  have hlist : Within Settled optionalList :=
    within_bind (within_optionalIf within_list) fun _ => within_pure _
  unfold keywordRest
  split
  · refine takes_importList.bind fun names w hw => takes_pure (Or.inl ?_)
    obtain ⟨list, trailing, rfl, rfl⟩ := hw
    exact ⟨.modules list trailing, rfl, by simp [ImportForm.kinds]⟩
  · exact takes_fromRest.mono fun o w hw => Or.inl hw
  · exact hother (by decide) (gives_pure none)
  · exact hother (by decide) (gives_pure none)
  · exact hother (by decide) (gives_pure none)
  · exact hother (by decide) (gives_bind hlist fun _ => gives_pure none)
  · exact hother (by decide) (gives_bind hlist fun _ => gives_accept_bind rfl
      (gives_bind within_read fun _ => gives_pure none) (gives_pure none))
  · exact hother (by decide) (gives_bind hnames fun _ => gives_pure none)
  · exact hother (by decide) (gives_bind hnames fun _ => gives_pure none)
  · exact hother (by decide) (gives_bind within_list fun _ => gives_pure none)
  · exact hother (by decide) (gives_bind within_expressions fun _ => gives_pure none)
  · exact takes_fail

/-! ### Pieces of a line -/

/-- The kinds of tokens. -/
def kindsOf (tokens : List Token) : List Kind :=
  tokens.map (·.kind)

/-- The statement that a piece of a line is, if it is written as an import statement. -/
def ofForm (form : ImportForm) (piece : List Token) : Statement :=
  form.request?.elim .plain fun request => .importing (importOver request piece)

/-- A piece of a line as the statement that its tokens show. -/
inductive Shows (piece : List Token) : Statement → Prop
  | imports (form : ImportForm) : kindsOf piece = form.kinds → Shows piece (ofForm form piece)
  | other : Settled (kindsOf piece) → Shows piece (ofKinds (kindsOf piece))

lemma withTokens_takes {α : Type} {p : Reader α} {P : α → List Kind → Prop} {ahead : List Kind}
    (hp : Takes ahead p P) {tokens piece rest : List Token} {a : α}
    (hahead : ahead <+: kindsOf tokens) (h : withTokens p tokens = .ok ((a, piece), rest)) :
    tokens = piece ++ rest ∧ P a (kindsOf piece) := by
  unfold withTokens at h
  split at h
  · next hread =>
    cases h
    obtain ⟨taken, rfl, hP⟩ := hp tokens a rest hahead hread
    simpa [kindsOf] using hP
  · cases h

lemma takes_keywordStatement (word : String) :
    Takes [.keyword word] (do advance; ended (keywordRest word)) fun o w =>
      (∃ form : ImportForm, form.request? = o ∧ w = form.kinds) ∨
        o = none ∧ Settled w ∧ ofKinds w = .plain := by
  refine takes_advance_bind ((takes_ended (takes_keywordRest word)).mono fun o w hw => ?_)
  rcases hw with ⟨form, hrequest, hkinds⟩ | ⟨ho, hword, hsettled⟩
  · exact Or.inl ⟨form, hrequest, hkinds.symm⟩
  · exact Or.inr ⟨ho, cons (by simpa [Kind.settles, Kind.stays, Kind.ends] using hword) hsettled, rfl⟩

lemma simple_shows {tokens rest : List Token} {s : Statement} (h : simple tokens = .ok (s, rest)) :
    ∃ piece, tokens = piece ++ rest ∧ Shows piece s := by
  have hopen : openStatement tokens = .ok (s, rest) →
      ∃ piece, tokens = piece ++ rest ∧ Shows piece s := by
    intro h
    obtain ⟨piece, htokens, hsettled, rfl⟩ := takes_openStatement tokens s rest List.nil_prefix h
    exact ⟨piece, htokens, .other hsettled⟩
  cases tokens with
  | nil => exact hopen h
  | cons t tokens =>
    obtain ⟨kind, start, stop⟩ := t
    cases kind with
    | keyword word =>
      change (if simpleKeywords.contains word then _ else openStatement : Reader Statement) _ = _
        at h
      split at h
      · obtain ⟨⟨request, piece⟩, mid, hread, h⟩ := bind_eq_ok_iff.mp h
        obtain ⟨htokens, hpiece⟩ := withTokens_takes (takes_keywordStatement word)
          (List.cons_prefix_cons.mpr ⟨rfl, List.nil_prefix⟩) hread
        rw [htokens]
        rcases hpiece with ⟨form, hrequest, hkinds⟩ | ⟨rfl, hsettled, hplain⟩
        · have hform := Shows.imports form hkinds
          unfold ofForm at hform
          rw [hrequest] at hform
          cases request <;> cases h <;> exact ⟨piece, rfl, hform⟩
        · have hother := Shows.other hsettled
          rw [hplain] at hother
          cases h
          exact ⟨piece, rfl, hother⟩
      · exact hopen h
    | _ => exact hopen h

lemma refuses_simples {word : String} (hsimple : simpleKeywords.contains word = false)
    (hbegins : begins (.keyword word) = false) (hyield : word ≠ "yield") :
    Refuses (.keyword word) simples := by
  have hexpression : Refuses (.keyword word) (ended expressionStatement) :=
    (refuses_listOrYield hbegins hyield).bind.bind
  have hopen : Refuses (.keyword word) openStatement := by
    refine takes_peek_ahead ?_
    split
    · next heq => cases heq
    · next heq => cases heq
    · next heq => cases heq
    · exact hexpression
  have hstatement : Refuses (.keyword word) simple :=
    takes_peek_ahead (takes_ite (fun h => absurd (h.symm.trans hsimple) nofun) fun _ => hopen)
  refine refuses_size_bind fun n => ?_
  cases n with
  | zero => exact takes_fail
  | succ n => exact hstatement.bind

end Statement

end ImportFence.Source
