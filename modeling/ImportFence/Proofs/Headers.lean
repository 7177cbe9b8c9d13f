import ImportFence.Source.Block
import ImportFence.Proofs.LinePieces

/-!
# Headers of blocks

The header of a block ends in a colon, and up to there no statement ends and nothing is imported. So
the imports of a line with a header are those that stand behind it.
-/

namespace ImportFence.Source

open Reader IsLanguage Statement

lemma within_balanced {α : Type} {p : Reader α} (h : Within Balanced p) :
    Within (Free Kind.stays) p :=
  h.mono fun _ _ hw => hw.free

/-! ### Patterns -/

namespace Pattern

lemma within_path : Within (Free Kind.stays) path :=
  within_bind (within_name fun _ => rfl) fun _ => within_whileFound
    (within_accept_bind rfl (within_bind (within_name fun _ => rfl) fun _ => within_pure _)
      (within_pure _))

lemma within_number : Within (Free Kind.stays) number :=
  within_bind (within_accept rfl) fun _ => within_bind (within_expect rfl) fun _ =>
    within_accept_bind rfl (within_expect rfl)
      (within_accept_bind rfl (within_expect rfl) (within_pure _))

variable {pattern : Reader Unit}

lemma within_argument (h : Within (Free Kind.stays) pattern) : Within (Free Kind.stays) (argument pattern) := by
  refine takes_peekTwo_bind (fun _ => h) fun k o => ?_
  split
  · next heq =>
    cases heq
    exact takes_advance_bind (takes_advance_bind (h.mono fun _ _ hw => cons rfl (cons rfl hw)))
  · exact h.anyhow

lemma within_entry (h : Within (Free Kind.stays) pattern) :
    Within (Free Kind.stays) (entry pattern pattern) :=
  within_accept_bind rfl (within_bind (within_name fun _ => rfl) fun _ => within_pure _)
    (within_bind h fun _ => within_bind (within_expect rfl) fun _ => h)

lemma within_starred (h : Within (Free Kind.stays) pattern) : Within (Free Kind.stays) (starred pattern) :=
  within_accept_bind rfl (within_bind (within_name fun _ => rfl) fun _ => within_pure _) h

lemma within_itemsUpTo {closing : String} (hclosing : (Kind.mark closing).stays = true)
    (h : Within (Free Kind.stays) pattern) : Within (Free Kind.stays) (itemsUpTo closing pattern) :=
  within_accept_bind hclosing (within_pure _) (within_bind (within_items rfl h) fun _ =>
    within_bind (within_expect hclosing) fun _ => within_pure _)

lemma within_closed (h : Within (Free Kind.stays) pattern) : Within (Free Kind.stays) (closed pattern) := by
  have hitems : ∀ {k : Kind} {closing : String} {item : Reader Unit}, k.stays = true →
      (Kind.mark closing).stays = true → Within (Free Kind.stays) item →
      Takes [k] (do advance; let _ ← itemsUpTo closing item) fun _ w => Free Kind.stays w := by
    intro k closing item hk hclosing hitem
    refine takes_advance_bind (Takes.mono (P := fun _ w => Free Kind.stays w) ?_
      fun _ _ hw => cons hk hw)
    exact within_bind (within_itemsUpTo hclosing hitem) fun _ => within_pure _
  refine takes_peek_bind takes_fail fun k => ?_
  split
  · refine Takes.anyhow (within_bind within_path fun _ => within_accept_bind rfl ?_ (within_pure _))
    exact within_bind (within_itemsUpTo rfl (within_argument h)) fun _ => within_pure _
  · next word heq =>
    cases heq
    refine takes_ite (fun hword => takes_advance (singleton ?_)) fun _ => takes_fail
    have hwords : word ∈ ["None", "True", "False"] := by simpa using hword
    clear hword
    revert word
    decide
  · refine Takes.anyhow (within_bind (within_balanced ?_) fun _ => within_pure _)
    exact (Expression.faithful_strings Expression.faithful_read).balanced
  · exact within_number.anyhow
  · next m heq =>
    cases heq
    refine takes_ite (fun _ => within_number.anyhow) fun _ => takes_ite ?_ fun _ => takes_ite ?_
      fun _ => takes_ite ?_ fun _ => takes_fail
    · rintro rfl
      exact hitems rfl rfl (within_starred h)
    · rintro rfl
      exact hitems rfl rfl (within_starred h)
    · rintro rfl
      exact hitems rfl rfl (within_entry h)
  · exact takes_fail

lemma within_within (n : Nat) : Within (Free Kind.stays) (within n) := by
  induction n with
  | zero => exact within_fail
  | succ n ih =>
    have hclosed := within_closed ih
    refine within_bind hclosed fun _ => within_bind (within_whileFound ?_) fun _ => ?_
    · exact within_accept_bind rfl (within_bind hclosed fun _ => within_pure _) (within_pure _)
    · exact within_accept_bind rfl (within_bind (within_name fun _ => rfl) fun _ => within_pure _)
        (within_pure _)

lemma within_read : Within (Free Kind.stays) read :=
  within_bind within_size fun n =>
    within_bind (within_items rfl (within_starred (within_within (n + 1)))) fun _ => within_pure _

end Pattern

/-! ### Headers -/

/-- A header: a colon behind tokens that end no statement. -/
def Heads (w : List Kind) : Prop :=
  ∃ v, w = v ++ [.mark ":"] ∧ Free Kind.stays v

lemma Heads.free {w : List Kind} (h : Heads w) : Free Kind.stays w := by
  obtain ⟨v, rfl, hv⟩ := h
  exact append hv (singleton rfl)

namespace Block

variable {α β : Type} {p : Reader α} {f : α → Reader β} {ahead : List Kind}

/-- What the reader takes is a header. -/
def Header (ahead : List Kind) (p : Reader α) : Prop :=
  Takes ahead p fun _ w => Heads w

lemma header_bind (hp : Takes ahead p fun _ w => Free Kind.stays w) (hf : ∀ a, Header [] (f a)) :
    Header ahead (p >>= f) := by
  refine hp.bind fun a w hw => (hf a).mono fun _ v hv => ?_
  obtain ⟨u, rfl, hu⟩ := hv
  exact ⟨w ++ u, by simp, append hw hu⟩

lemma header_mark : Header [] (mark ":") :=
  (takes_expect _).mono fun _ _ hw => ⟨[], hw, nil⟩

lemma header_accept_bind {f : Bool → Reader β} {k : Kind} (hk : k.stays = true)
    (hyes : Header [] (f true)) (hno : Header [] (f false)) : Header [] (accept k >>= f) :=
  header_bind (within_accept hk) fun found => by
    cases found with
    | true => exact hyes
    | false => exact hno

/-- What the reader takes is a header that starts with a word. -/
def HeaderFrom (k : Kind) (p : Reader α) : Prop :=
  Takes [] p fun _ w => Heads w ∧ w.head? = some k

lemma HeaderFrom.header {k : Kind} (h : HeaderFrom k p) : Header [] p :=
  h.mono fun _ _ hw => hw.1

lemma headerFrom_expect {f : Unit → Reader β} {k : Kind} (hk : k.stays = true)
    (hf : Header [] (f ())) : HeaderFrom k (expect k >>= f) := by
  refine takes_expect_bind (hf.mono fun _ v hv => ⟨?_, rfl⟩)
  obtain ⟨u, rfl, hu⟩ := hv
  exact ⟨k :: u, rfl, cons hk hu⟩

lemma takes_word {k : Kind} (hk : k.stays = true) :
    Takes [k] advance fun _ w => Free Kind.stays w :=
  takes_advance (singleton hk)

lemma takes_withTokens {P : α → List Kind → Prop} (hp : Takes ahead p P) :
    Takes ahead (withTokens p) fun r w => P r.1 w := by
  intro tokens r rest hahead h
  obtain ⟨htokens, hP⟩ := withTokens_takes hp hahead h
  exact ⟨r.2, htokens, hP⟩

lemma header_condition (source : List Char) {word : String} (hword : (Kind.keyword word).stays = true) :
    Header [.keyword word] (conditionHeader source) := by
  refine header_bind (takes_word hword) fun _ => header_bind
    ((takes_withTokens (Settled.within Statement.within_read)).mono fun _ _ hw => hw) fun r => ?_
  refine header_mark.bind fun _ w hw => ?_
  split <;> exact takes_pure (by simpa using hw)

lemma header_bare {word : String} (hword : (Kind.keyword word).stays = true) :
    Header [.keyword word] bareHeader :=
  header_bind (takes_word hword) fun _ => header_mark

lemma header_except : Header [.keyword "except"] exceptHeader := by
  have hread := Settled.within Statement.within_read
  refine header_bind (takes_word rfl) fun _ => header_bind (within_accept rfl) fun _ => ?_
  refine takes_accept_bind (takes_pure ⟨[], rfl, nil⟩) (header_bind hread fun _ => ?_)
  exact header_accept_bind rfl (header_bind hread fun _ => header_mark)
    (header_accept_bind rfl (header_bind hread fun _ => header_mark) header_mark)

lemma header_function : HeaderFrom (.keyword "def") functionHeader := by
  have hparameters : Within (Free Kind.stays) parameters := by
    refine Expression.takes_levelsHere_bind fun l hl => ?_
    have hparameter : Within (Free Kind.stays) (Expression.parameter l true) :=
      Expression.within_parameter (fun _ hw => hw.balanced.free)
        (fun k hk => by simp [Kind.stays, (next_of_even hk 0).1]) (fun _ => rfl) hl
    exact within_bind (Pattern.within_itemsUpTo rfl hparameter) fun _ => within_pure _
  refine headerFrom_expect rfl (header_bind (within_name fun _ => rfl) fun _ =>
    header_bind (Settled.within within_typeParameters) fun _ => header_bind (within_expect rfl) fun _ =>
      header_bind hparameters fun _ => ?_)
  exact header_accept_bind rfl (header_bind (Settled.within within_list) fun _ => header_mark) header_mark

lemma header_class : HeaderFrom (.keyword "class") classHeader := by
  have harguments : ∀ l : Expression.Levels, l.Faithful →
      Within (Free Kind.stays) (Expression.arguments l) := by
    intro l hl
    refine Takes.mono (Expression.closes_arguments hl) fun _ w hw => ?_
    obtain ⟨v, k, rfl, hv, hk⟩ := hw.2
    exact append hv.free (singleton (by simp [Kind.stays, (Kind.of_closes hk).2]))
  refine headerFrom_expect rfl (header_bind (within_name fun _ => rfl) fun _ =>
    header_bind (Settled.within within_typeParameters) fun _ => header_accept_bind rfl ?_ header_mark)
  exact Expression.takes_levelsHere_bind fun l hl =>
    header_bind (harguments l hl) fun _ => header_mark

lemma header_for : Header [] forHeader := by
  refine header_bind (within_expect rfl) fun _ => Expression.takes_levelsHere_bind fun l hl => ?_
  exact header_bind (within_balanced (Expression.within_targets hl.primary)) fun _ =>
    header_bind (within_expect rfl) fun _ => header_bind (Settled.within within_list) fun _ => header_mark

lemma header_while : Header [] whileHeader :=
  header_bind (within_expect rfl) fun _ => header_bind (Settled.within Statement.within_read) fun _ => header_mark

lemma within_context : Within (Free Kind.stays) context := by
  refine within_bind (Settled.within Statement.within_read) fun _ => within_accept_bind rfl ?_ (within_pure _)
  exact Expression.takes_levelsHere_bind fun l hl =>
    within_bind (within_balanced (Expression.within_targetItem hl.primary)) fun _ => within_pure _

lemma header_with : Header [] withHeader := by
  refine header_bind (within_expect rfl) fun _ => takes_either ?_ ?_
  · exact header_bind (within_expect rfl) fun _ => header_bind (within_items rfl within_context) fun _ =>
      header_bind (within_expect rfl) fun _ => header_mark
  · exact header_bind (within_items rfl within_context) fun _ => header_mark

lemma header_case : Header [] caseHeader := by
  have hread := Settled.within Statement.within_read
  refine header_bind (within_expect rfl) fun _ => header_bind Pattern.within_read fun _ => ?_
  exact header_accept_bind rfl (header_bind hread fun _ => header_mark) header_mark

lemma header_definition : Takes [] definitionHeader fun _ w => Heads w ∧
    ∃ word ∈ ["async", "def", "class"], w.head? = some (.keyword word) := by
  have hrest : Takes [] (do if (← peek?) = some (.keyword "def") then functionHeader else classHeader)
      fun _ w => Heads w ∧ ∃ word ∈ ["async", "def", "class"], w.head? = some (.keyword word) := by
    refine takes_peek_bind ?_ fun k => Takes.anyhow ?_
    · exact header_class.mono fun _ w hw => ⟨hw.1, "class", by simp, hw.2⟩
    · refine takes_ite (fun _ => ?_) fun _ => ?_
      · exact header_function.mono fun _ w hw => ⟨hw.1, "def", by simp, hw.2⟩
      · exact header_class.mono fun _ w hw => ⟨hw.1, "class", by simp, hw.2⟩
  refine takes_accept_bind (hrest.mono fun _ w hw => ?_) hrest
  obtain ⟨⟨u, rfl, hu⟩, -⟩ := hw
  exact ⟨⟨.keyword "async" :: u, rfl, cons rfl hu⟩, "async", by simp, rfl⟩

/-! ### Readers of whole lines -/

/-- The reader leaves nothing of its line. -/
def EndsLine (p : Reader α) : Prop :=
  ∀ tokens a rest, p tokens = .ok (a, rest) → rest = []

lemma endsLine_bind (hf : ∀ a, EndsLine (f a)) : EndsLine (p >>= f) := by
  intro tokens b rest h
  obtain ⟨a, mid, -, hb⟩ := bind_eq_ok_iff.mp h
  exact hf a mid b rest hb

lemma atEnd_or_fail {tokens rest : List Token} {a : Unit}
    (h : (do if !(← atEnd) then fail : Reader Unit) tokens = .ok (a, rest)) :
    tokens = [] ∧ rest = [] := by
  cases tokens with
  | nil =>
    cases h
    exact ⟨rfl, rfl⟩
  | cons t tokens => cases h

lemma endsLine_atEnd : EndsLine (do if !(← atEnd) then fail) :=
  fun _ _ _ h => (atEnd_or_fail h).2

lemma takes_atEnd : Takes [] (do if !(← atEnd) then fail) fun _ w => w = [] := by
  intro tokens a rest _ h
  obtain ⟨rfl, rfl⟩ := atEnd_or_fail h
  exact ⟨[], rfl, rfl⟩

lemma header_match : Header [] matchHeader := by
  refine header_bind (within_expect rfl) fun _ => header_bind (Settled.within within_list) fun _ => ?_
  refine header_mark.bind fun _ w hw => takes_atEnd.mono fun _ v hv => ?_
  rwa [hv, List.append_nil]

lemma endsLine_match : EndsLine matchHeader :=
  endsLine_bind fun _ => endsLine_bind fun _ => endsLine_bind fun _ => endsLine_atEnd

lemma within_decorator : Within Settled decorator := by
  refine within_bind (within_expect rfl) fun _ => within_bind Statement.within_read fun _ => ?_
  exact takes_atEnd.mono fun _ v hv => hv ▸ nil

lemma endsLine_decorator : EndsLine decorator :=
  endsLine_bind fun _ => endsLine_bind fun _ => endsLine_atEnd

end Block

/-! ### Lines with a header -/

lemma pieces_header {header rest : List Token} (h : ∀ t ∈ header, t.kind ≠ .mark ";") :
    pieces (header ++ rest) = (pieces rest).modifyHead (header ++ ·) := by
  induction header with
  | nil =>
    rw [List.nil_append]
    cases pieces rest <;> rfl
  | cons t header ih =>
    obtain ⟨ht, hheader⟩ := List.forall_mem_cons.mp h
    have hrest := ih hheader
    unfold pieces at hrest ⊢
    rw [List.cons_append, List.splitOnP_cons_eq_if_modifyHead, if_neg (by simpa using ht), hrest,
      List.modifyHead_modifyHead]
    rfl

lemma rtakeWhile_behind {α : Type} {p : α → Bool} {c : α} (hc : p c = false) (xs ys : List α) :
    (xs ++ c :: ys).rtakeWhile p = ys.rtakeWhile p := by
  induction ys using List.reverseRecOn with
  | nil => simp [hc]
  | append_singleton ys y ih =>
    rw [← List.cons_append, ← List.append_assoc, List.rtakeWhile_concat, List.rtakeWhile_concat, ih]

lemma importSegments_header {header rest : List Token} (h : Heads (kindsOf header)) :
    importSegments (header ++ rest) = importSegments rest := by
  have hfree := h.free
  obtain ⟨v, hkinds, -⟩ := h
  obtain ⟨front, colon, rfl, rfl, hcolon⟩ := List.map_eq_append_iff.mp hkinds
  obtain ⟨c, rfl, hc⟩ := List.map_eq_singleton_iff.mp hcolon
  obtain ⟨piece, further, hpieces⟩ := List.exists_cons_of_ne_nil
    (List.splitOnP_ne_nil (·.kind = .mark ";") rest)
  have hpieces : pieces rest = piece :: further := hpieces
  have hfirst : segmentsOf [front ++ [c] ++ piece] = segmentsOf [piece] := by
    have hholds : holdsImport (front ++ [c] ++ piece) = holdsImport piece := by
      rw [holdsImport, List.any_append, ← holdsImport, holdsImport_of_free hfree, Bool.false_or]
      rfl
    have hbehind : (front ++ [c] ++ piece).rtakeWhile (·.kind ≠ .mark ":") =
        piece.rtakeWhile (·.kind ≠ .mark ":") := by
      rw [List.append_assoc]
      exact rtakeWhile_behind (by simp [hc]) front piece
    simp only [segmentsOf, List.filter_cons, hholds]
    split
    · simp only [List.filter_nil, List.map_cons, List.map_nil, hbehind]
    · rfl
  rw [importSegments, importSegments, pieces_header (not_semicolon_of_free hfree), hpieces, List.modifyHead_cons,
    ← List.singleton_append, segmentsOf_append, hfirst, ← segmentsOf_append, List.singleton_append]

lemma importSegments_free {tokens : List Token} (h : Free Kind.stays (kindsOf tokens)) :
    importSegments tokens = [] := by
  rw [importSegments, pieces_eq_singleton (not_semicolon_of_free h), segmentsOf,
    List.filter_cons_of_neg (by simp [holdsImport_of_free h])]
  rfl

end ImportFence.Source
