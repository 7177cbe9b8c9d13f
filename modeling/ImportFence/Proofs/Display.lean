import ImportFence.Proofs.Nesting
import Mathlib.Data.List.Forall2

/-!
# Literals and displays

The text of a literal, and the texts in a list or tuple that is written out, as their tokens show
them: a literal or a bracket reaches to where it is closed, and the elements of a list stand between
the commas outside of all further brackets.
-/

namespace ImportFence.Source

/-- Cuts a text at the bracket that closes the one before it: what is inside, and what follows. -/
def inside : Nat → List Kind → Option (List Kind × List Kind)
  | _, [] => none
  | d, k :: ks =>
    if k.closes && d = 0 then some ([], ks)
    else (inside (if k.opens then d + 1 else if k.closes then d - 1 else d) ks).map
      fun r => (k :: r.1, r.2)

def Kind.text : Kind → String
  | .stringText text => text
  | _ => ""

/-- The pieces of text in a literal, without those of literals in its fields. -/
def outerText : Nat → List Kind → String
  | _, [] => ""
  | d, k :: ks =>
    if k.opens then outerText (d + 1) ks
    else if k.closes then outerText (d - 1) ks
    else (if d = 0 then k.text else "") ++ outerText d ks

/-- The text of a literal, if the tokens are one and nothing else. -/
def literalText? : List Kind → Option String
  | .stringOpen :: ks =>
    match inside 0 ks with
    | some (content, []) => some (outerText 0 content)
    | _ => none
  | _ => none

/-- The text of an element that is a literal and not empty. -/
def elementText? (element : List Kind) : Option String :=
  (literalText? element).filter (· ≠ "")

/-- The texts of the elements with commas between them. -/
def elementTexts (content : List Kind) : List String :=
  (Nesting.split (.mark ",") ⟨0, 0⟩ content).filterMap elementText?

/-- Whether the content of round brackets makes them a tuple: it is empty or divided by commas. -/
def isTuple (content : List Kind) : Bool :=
  content.isEmpty ||
    content.head? ≠ some (.keyword "yield") && Nesting.standsIn (.mark ",") ⟨0, 0⟩ content

/-- The texts in brackets that are a list or tuple written out. -/
def bracketTexts? (opening : String) (content : List Kind) : Option (List String) :=
  if Nesting.standsIn (.keyword "for") ⟨0, 0⟩ content then none
  else if opening = "[" || opening = "(" && isTuple content then some (elementTexts content)
  else none

/-- The texts in a list or tuple that is written out, if the tokens are one and nothing else. -/
def displayTexts? : List Kind → Option (List String)
  | .mark m :: ks =>
    match inside 0 ks with
    | some (content, []) => bracketTexts? m content
    | _ => none
  | _ => none

def shapeOf (ks : List Kind) : Shape :=
  match ks with
  | [.name text] => .name text
  | _ =>
    match literalText? ks, displayTexts? ks with
    | some text, _ => .text text
    | none, some texts => .display texts
    | none, none => .other

lemma inside_append {d d' : Nat} {w : List Kind} (h : level d w = some d') (ks : List Kind) :
    inside d (w ++ ks) = (inside d' ks).map fun r => (w ++ r.1, r.2) := by
  induction w generalizing d with
  | nil =>
    cases h
    simp
  | cons k w ih =>
    rw [level] at h
    rw [List.cons_append, inside]
    split_ifs at h with hends hopens hcloses hzero
    · rw [if_neg (by simp [(Kind.of_opens hopens).1]), if_pos hopens, ih h, Option.map_map]
      rfl
    · rw [if_neg (by simp [hzero]), if_neg hopens, if_pos hcloses, ih h, Option.map_map]
      rfl
    · rw [if_neg (by simp [hcloses]), if_neg hopens, if_neg hcloses, ih h, Option.map_map]
      rfl

lemma outerText_append {d d' : Nat} {w : List Kind} (h : level d w = some d') (ks : List Kind) :
    outerText (d + 1) (w ++ ks) = outerText (d' + 1) ks := by
  induction w generalizing d with
  | nil =>
    cases h
    rfl
  | cons k w ih =>
    rw [level] at h
    rw [List.cons_append, outerText]
    split_ifs at h with hends hopens hcloses hzero
    · rw [if_pos hopens]
      exact ih h
    · rw [if_neg hopens, if_pos hcloses, ← ih h]
      congr 1
      omega
    · rw [if_neg hopens, if_neg hcloses, if_neg (by omega), ih h, String.empty_append]

lemma outerText_closing {k : Kind} {w : List Kind} (hk : k.opens = true) (hw : Closing w)
    (ks : List Kind) : outerText 0 (k :: (w ++ ks)) = outerText 0 ks := by
  obtain ⟨v, l, rfl, hv, hl⟩ := hw
  rw [outerText, if_pos hk, List.append_assoc, outerText_append (hv 0), List.singleton_append,
    outerText, if_neg (by simp [(Kind.of_closes hl).1]), if_pos hl]

lemma inside_closing {content : List Kind} (hcontent : Balanced content) {k : Kind}
    (hk : k.closes = true) (v : List Kind) :
    inside 0 (content ++ k :: v) = some (content, v) := by
  rw [inside_append (hcontent 0), inside, if_pos (by simp [hk])]
  simp

lemma shapeOf_of_literal {w : List Kind} {text : String} (h : literalText? w = some text) :
    shapeOf w = .text text := by
  unfold shapeOf
  split
  · cases h
  · rw [h]

lemma shapeOf_of_display {w : List Kind} {texts : List String} (hliteral : literalText? w = none)
    (h : displayTexts? w = some texts) : shapeOf w = .display texts := by
  unfold shapeOf
  split
  · cases h
  · rw [hliteral, h]

lemma shapeOf_other {w : List Kind} (hname : ∀ text, w ≠ [.name text])
    (hliteral : literalText? w = none) (hdisplay : displayTexts? w = none) :
    shapeOf w = .other := by
  unfold shapeOf
  split
  · exact absurd rfl (hname _)
  · rw [hliteral, hdisplay]

/-- A text is of a shape, and with more behind it of no other shape either. -/
structure Shaped (shape : Shape) (w : List Kind) : Prop where
  eq : shape = shapeOf w
  alone : ∀ v, v ≠ [] → shapeOf (w ++ v) = .other

lemma Shaped.append {shape : Shape} {w v : List Kind} (h : Shaped shape w) (hv : v ≠ []) :
    Shaped .other (w ++ v) where
  eq := (h.alone v hv).symm
  alone u hu := by
    rw [List.append_assoc]
    exact h.alone _ (by simp [hv])

lemma Shaped.ne_nil {shape : Shape} {w : List Kind} (h : Shaped shape w) : w ≠ [] := by
  rintro rfl
  exact absurd (h.alone [.name ""] (by simp)) (by decide)

lemma shaped_name (text : String) : Shaped (.name text) [.name text] where
  eq := rfl
  alone v hv := by
    cases v with
    | nil => exact absurd rfl hv
    | cons k v => rfl

lemma shaped_other {k : Kind} (h : ∀ v, shapeOf (k :: v) = .other) (w : List Kind) :
    Shaped .other (k :: w) where
  eq := (h w).symm
  alone v _ := h (w ++ v)

lemma shapeOf_keyword (word : String) (v : List Kind) : shapeOf (.keyword word :: v) = .other :=
  shapeOf_other (by simp) rfl rfl

lemma shapeOf_number (v : List Kind) : shapeOf (.number :: v) = .other :=
  shapeOf_other (by simp) rfl rfl

lemma shapeOf_mark {m : String} (hsquare : m ≠ "[") (hround : m ≠ "(") (v : List Kind) :
    shapeOf (.mark m :: v) = .other := by
  refine shapeOf_other (by simp) rfl ?_
  rw [displayTexts?]
  split
  · simp [bracketTexts?, hsquare, hround]
  · rfl

lemma shaped_literal {content : List Kind} (hcontent : Balanced content) {k : Kind}
    (hk : k.closes = true) :
    Shaped (.text (outerText 0 content)) (.stringOpen :: (content ++ [k])) where
  eq := by
    refine (shapeOf_of_literal ?_).symm
    rw [literalText?, inside_closing hcontent hk]
  alone v hv := by
    refine shapeOf_other (by simp) ?_ rfl
    cases v with
    | nil => exact absurd rfl hv
    | cons l v =>
      rw [List.cons_append, List.append_assoc, literalText?, List.singleton_append,
        inside_closing hcontent hk]

/-- The shape of brackets around a content. -/
def bracketShape (opening : String) (content : List Kind) : Shape :=
  match bracketTexts? opening content with
  | some texts => .display texts
  | none => .other

lemma shaped_bracket {m : String} {content : List Kind} (hcontent : Balanced content) {k : Kind}
    (hk : k.closes = true) : Shaped (bracketShape m content) (.mark m :: (content ++ [k])) where
  eq := by
    have hdisplay : displayTexts? (.mark m :: (content ++ [k])) = bracketTexts? m content := by
      rw [displayTexts?, inside_closing hcontent hk]
    unfold bracketShape
    cases htexts : bracketTexts? m content with
    | some texts => exact (shapeOf_of_display rfl (hdisplay.trans htexts)).symm
    | none => exact (shapeOf_other (by simp) rfl (hdisplay.trans htexts)).symm
  alone v hv := by
    refine shapeOf_other (by simp) rfl ?_
    cases v with
    | nil => exact absurd rfl hv
    | cons l v =>
      rw [List.cons_append, List.append_assoc, displayTexts?, List.singleton_append,
        inside_closing hcontent hk]

/-! ### Elements -/

open Reader in
lemma split_commaList {ws : List (List Kind)} (hne : ws ≠ []) (h : ∀ w ∈ ws, Unbroken w)
    (trailing : Bool) : Nesting.split (.mark ",") ⟨0, 0⟩ (commaList ws trailing) =
      ws ++ if trailing then [[]] else [] := by
  induction ws with
  | nil => exact absurd rfl hne
  | cons w ws ih =>
    obtain ⟨hw, hws⟩ := List.forall_mem_cons.mp h
    cases ws with
    | nil =>
      rw [commaList, Nesting.split_append rfl (hw.track 0)]
      cases trailing <;> simp [Nesting.split, Nesting.outermost]
    | cons v ws =>
      rw [commaList_cons (by simp), Nesting.split_append rfl (hw.track 0), Nesting.split,
        if_pos (by simp [Nesting.outermost]), ih (by simp) hws]
      simp

open Reader in
lemma standsIn_comma_commaList {ws : List (List Kind)} (h : ∀ w ∈ ws, Unbroken w)
    (trailing : Bool) : Nesting.standsIn (.mark ",") ⟨0, 0⟩ (commaList ws trailing) =
      (1 < ws.length || trailing && 0 < ws.length) := by
  cases ws with
  | nil => simp [commaList]
  | cons w ws =>
    obtain ⟨hw, hws⟩ := List.forall_mem_cons.mp h
    cases ws with
    | nil =>
      rw [commaList, Nesting.standsIn_append rfl (hw.track 0)]
      cases trailing <;> simp [Nesting.standsIn_cons, Nesting.outermost]
    | cons v ws =>
      rw [commaList_cons (by simp), Nesting.standsIn_append rfl (hw.track 0), Nesting.standsIn_cons]
      simp [Nesting.outermost]

open Reader in
lemma standsIn_commaList {k : Kind} (hk : k.divides = true) (hcomma : k ≠ .mark ",")
    {ws : List (List Kind)} (h : ∀ w ∈ ws, Unbroken w) (trailing : Bool) :
    Nesting.standsIn k ⟨0, 0⟩ (commaList ws trailing) = false := by
  induction ws with
  | nil => rfl
  | cons w ws ih =>
    obtain ⟨hw, hws⟩ := List.forall_mem_cons.mp h
    have hskip : ∀ ks, Nesting.standsIn k ⟨0, 0⟩ (.mark "," :: ks) =
        Nesting.standsIn k ⟨0, 0⟩ ks := by
      intro ks
      simp [Nesting.standsIn_cons, Nesting.next, Kind.opens, Kind.closes, hcomma.symm]
    cases ws with
    | nil =>
      rw [commaList, Nesting.standsIn_append hk (hw.track 0)]
      cases trailing <;> simp [Nesting.standsIn_cons, hcomma.symm]
    | cons v ws =>
      rw [commaList_cons (by simp), Nesting.standsIn_append hk (hw.track 0), hskip, ih hws]

lemma literalText?_eq (w : List Kind) :
    literalText? w = match shapeOf w with
      | .text content => some content
      | _ => none := by
  cases hliteral : literalText? w with
  | some content => rw [shapeOf_of_literal hliteral]
  | none =>
    have hshape : ∀ content, shapeOf w ≠ .text content := by
      intro content h
      unfold shapeOf at h
      rw [hliteral] at h
      split at h
      · cases h
      · cases hdisplay : displayTexts? w <;> rw [hdisplay] at h <;> cases h
    split
    · next h => exact absurd h (hshape _)
    · rfl

/-- The expression is written as these tokens. -/
structure Expression.Written (e : Expression) (w : List Kind) : Prop where
  unbroken : Unbroken w
  shaped : Shaped e.shape w

lemma Expression.Written.elementText? {e : Expression} {w : List Kind} (h : e.Written w) :
    elementText? w = match e.shape with
      | .text s => if s = "" then none else some s
      | _ => none := by
  rw [Source.elementText?, literalText?_eq, ← h.shaped.eq]
  cases e.shape with
  | text content => by_cases hempty : content = "" <;> simp [Option.filter, hempty]
  | _ => rfl

lemma unbroken_of_written {es : List Expression} {ws : List (List Kind)}
    (h : List.Forall₂ Expression.Written es ws) : ∀ w ∈ ws, Unbroken w :=
  Reader.forall_mem_of_forall₂ (h.imp fun _ _ hw => hw.unbroken)

lemma elementTexts_commaList {es : List Expression} {ws : List (List Kind)} (hne : ws ≠ [])
    (h : List.Forall₂ Expression.Written es ws) (trailing : Bool) :
    elementTexts (Reader.commaList ws trailing) = Expression.texts es := by
  have hends : (ws ++ if trailing then [[]] else []).filterMap elementText? =
      ws.filterMap elementText? := by
    cases trailing <;> simp [elementText?, literalText?]
  rw [elementTexts, split_commaList hne (unbroken_of_written h), hends]
  clear hends hne
  induction h with
  | nil => rfl
  | cons he _ ih =>
    rw [Expression.texts, List.filterMap_cons, List.filterMap_cons, he.elementText?, ih]
    rfl

open Reader in
lemma head?_commaList {w : List Kind} (hw : Unbroken w) (hne : w ≠ []) (ws : List (List Kind))
    (trailing : Bool) : (commaList (w :: ws) trailing).head? ≠ some (.keyword "yield") := by
  cases w with
  | nil => exact absurd rfl hne
  | cons k w =>
    have hhead : (commaList ((k :: w) :: ws) trailing).head? = some k := by
      cases ws <;> rfl
    rw [hhead]
    rintro ⟨rfl⟩
    exact absurd hw.head_not_divides (by decide)

open Reader in
lemma isTuple_commaList {w : List Kind} {ws : List (List Kind)} (trailing : Bool) (hne : w ≠ [])
    (h : ∀ v ∈ w :: ws, Unbroken v) :
    isTuple (commaList (w :: ws) trailing) = (0 < ws.length || trailing) := by
  have hhead := head?_commaList (h w List.mem_cons_self) hne ws trailing
  have hempty : (commaList (w :: ws) trailing).isEmpty = false := by
    cases w with
    | nil => exact absurd rfl hne
    | cons k w => cases ws <;> rfl
  rw [isTuple, hempty, standsIn_comma_commaList h]
  simp [hhead]

/-- The shape of a list that is written out, and of a tuple: a single item in round brackets needs
a comma behind it. -/
lemma bracketShape_commaList {opening : String} {es : List Expression} {ws : List (List Kind)}
    {trailing : Bool} (hne : ws ≠ [])
    (hopening : opening = "[" ∨ opening = "(" ∧ (1 < ws.length ∨ trailing = true))
    (h : List.Forall₂ Expression.Written es ws) :
    bracketShape opening (Reader.commaList ws trailing) = .display (Expression.texts es) := by
  have hunbroken := unbroken_of_written h
  have hfor := standsIn_commaList (k := .keyword "for") rfl (by simp) hunbroken trailing
  have hopens : (opening = "[" || opening = "(" && isTuple (Reader.commaList ws trailing)) =
      true := by
    rcases hopening with rfl | ⟨rfl, hmore⟩
    · rfl
    · cases h with
      | nil => exact absurd rfl hne
      | cons he _ =>
        rw [isTuple_commaList trailing he.shaped.ne_nil hunbroken]
        simpa using hmore
  rw [bracketShape, bracketTexts?, hfor, hopens, elementTexts_commaList hne h]
  rfl

lemma bracketShape_single {w : List Kind} (hw : Unbroken w) (hne : w ≠ []) :
    bracketShape "(" w = .other := by
  have hitem : Reader.commaList [w] false = w := List.append_nil w
  have htuple : isTuple (Reader.commaList [w] false) = false :=
    isTuple_commaList false hne (by simpa using hw)
  rw [hitem] at htuple
  simp [bracketShape, bracketTexts?, htuple]

end ImportFence.Source
