import ImportFence.Source.Expression
import ImportFence.Proofs.Traversal

/-!
# What readers take

A reader that succeeds takes tokens off the front. `Takes` says of what it took, and of what it
read, that they fit together; where a reader looks ahead, the kinds it has seen are known. Of most
readers it only matters that what they take belongs to a language that is closed under putting
texts one behind the other, and then the parts of a reader can be looked at one by one.
-/

namespace ImportFence.Source.Reader

variable {α β : Type} {ahead : List Kind} {p q : Reader α} {f : α → Reader β}
  {P : α → List Kind → Prop} {Q : β → List Kind → Prop}

/-- If tokens begin with the kinds ahead, then what the reader takes of them and what it reads fit
together. -/
def Takes (ahead : List Kind) (p : Reader α) (P : α → List Kind → Prop) : Prop :=
  ∀ tokens a rest, ahead <+: tokens.map (·.kind) → p tokens = .ok (a, rest) →
    ∃ taken, tokens = taken ++ rest ∧ P a (taken.map (·.kind))

lemma bind_eq_ok_iff {tokens : List Token} {r : β × List Token} :
    (p >>= f) tokens = .ok r ↔ ∃ a rest, p tokens = .ok (a, rest) ∧ f a rest = .ok r := by
  change (p tokens >>= fun x => f x.1 x.2) = .ok r ↔ _
  simp only [Traversal.bind_eq_ok_iff, Prod.exists]

lemma Takes.mono {P' : α → List Kind → Prop} (h : Takes ahead p P)
    (himp : ∀ a w, P a w → P' a w) : Takes ahead p P' := by
  intro tokens a rest hahead hp
  obtain ⟨taken, htokens, hP⟩ := h tokens a rest hahead hp
  exact ⟨taken, htokens, himp _ _ hP⟩

lemma Takes.anyhow (h : Takes [] p P) : Takes ahead p P :=
  fun tokens a rest _ hp => h tokens a rest List.nil_prefix hp

lemma Takes.agrees (h : Takes ahead p P) :
    Takes ahead p fun a w => P a w ∧ (w <+: ahead ∨ ahead <+: w) := by
  intro tokens a rest hahead hp
  obtain ⟨taken, rfl, hP⟩ := h tokens a rest hahead hp
  rw [List.map_append] at hahead
  exact ⟨taken, rfl, hP, List.prefix_or_prefix_of_prefix (List.prefix_append _ _) hahead⟩

/-! ### Parts of readers -/

lemma takes_pure {a : α} (h : P a []) : Takes ahead (pure a) P := by
  intro tokens a' rest _ hp
  cases hp
  exact ⟨[], rfl, h⟩

lemma takes_fail : Takes ahead (fail : Reader α) P :=
  fun _ _ _ _ hp => nomatch hp

lemma takes_fail_bind : Takes ahead ((fail : Reader α) >>= f) Q :=
  fun _ _ _ _ h => nomatch h

/-- One reader behind the other. What the first left of the kinds ahead is ahead of the second. -/
lemma Takes.bind_ahead (hp : Takes ahead p P)
    (hf : ∀ a w, P a w → Takes (ahead.drop w.length) (f a) fun b v => Q b (w ++ v)) :
    Takes ahead (p >>= f) Q := by
  intro tokens b rest hahead h
  obtain ⟨a, mid, ha, hb⟩ := bind_eq_ok_iff.mp h
  obtain ⟨first, rfl, hP⟩ := hp tokens a mid hahead ha
  have hmid : ahead.drop (first.map (·.kind)).length <+: mid.map (·.kind) := by
    obtain ⟨more, hmore⟩ := hahead
    rw [List.map_append] at hmore
    have hdrop := congrArg (List.drop (first.map (·.kind)).length) hmore
    rw [List.drop_left, List.drop_append] at hdrop
    exact ⟨_, hdrop⟩
  obtain ⟨second, rfl, hQ⟩ := hf a _ hP mid b rest hmid hb
  exact ⟨first ++ second, by rw [List.append_assoc], by rw [List.map_append]; exact hQ⟩

lemma Takes.bind (hp : Takes ahead p P)
    (hf : ∀ a w, P a w → Takes [] (f a) fun b v => Q b (w ++ v)) : Takes ahead (p >>= f) Q :=
  hp.bind_ahead fun a w hw => (hf a w hw).anyhow

lemma takes_advance_bind {f : Unit → Reader β} {k : Kind}
    (h : Takes ahead (f ()) fun b v => Q b (k :: v)) : Takes (k :: ahead) (advance >>= f) Q := by
  intro tokens b rest hahead hb
  obtain ⟨a, mid, hadvance, hb⟩ := bind_eq_ok_iff.mp hb
  cases tokens with
  | nil => cases hadvance
  | cons t tokens =>
    cases hadvance
    obtain ⟨rfl, hmore⟩ := List.cons_prefix_cons.mp hahead
    obtain ⟨taken, rfl, hQ⟩ := h _ b rest hmore hb
    exact ⟨t :: taken, rfl, hQ⟩

lemma takes_advance {P : Unit → List Kind → Prop} {k : Kind} (h : P () [k]) :
    Takes (k :: ahead) advance P := by
  rw [← bind_pure advance]
  exact takes_advance_bind (takes_pure h)

lemma takes_peek_bind {f : Option Kind → Reader β} (hnone : Takes [] (f none) Q)
    (hsome : ∀ k, Takes [k] (f (some k)) Q) : Takes [] (peek? >>= f) Q := by
  intro tokens b rest _ h
  cases tokens with
  | nil => exact hnone [] b rest List.nil_prefix h
  | cons t tokens =>
    exact hsome t.kind (t :: tokens) b rest (List.cons_prefix_cons.mpr ⟨rfl, List.nil_prefix⟩) h

lemma takes_peek_ahead {f : Option Kind → Reader β} {k : Kind}
    (h : Takes (k :: ahead) (f (some k)) Q) : Takes (k :: ahead) (peek? >>= f) Q := by
  intro tokens b rest hahead hb
  cases tokens with
  | nil => simp at hahead
  | cons t tokens =>
    obtain ⟨rfl, -⟩ := List.cons_prefix_cons.mp hahead
    exact h (t :: tokens) b rest hahead hb

lemma takes_peekTwo_bind {f : Option Kind → Option Kind → Reader β}
    (hnone : ∀ o, Takes [] (f none o) Q)
    (hsome : ∀ k o, Takes (k :: o.toList) (f (some k) o) Q) :
    Takes [] (peek? >>= fun a => peekSecond? >>= f a) Q := by
  intro tokens b rest _ h
  match tokens with
  | [] => exact hnone none [] b rest List.nil_prefix h
  | [t] => exact hsome t.kind none [t] b rest List.prefix_rfl h
  | t :: u :: tokens =>
    refine hsome t.kind (some u.kind) (t :: u :: tokens) b rest ?_ h
    exact List.cons_prefix_cons.mpr ⟨rfl, List.cons_prefix_cons.mpr ⟨rfl, List.nil_prefix⟩⟩

lemma takes_peekTwo_ahead {f : Option Kind → Option Kind → Reader β} {k : Kind}
    (h : ∀ o, Takes (k :: ahead) (f (some k) o) Q) :
    Takes (k :: ahead) (peek? >>= fun a => peekSecond? >>= f a) Q :=
  takes_peek_ahead fun tokens b rest hahead hb => h _ tokens b rest hahead hb

lemma takes_size_bind {f : Nat → Reader β} (h : ∀ n, Takes ahead (f n) Q) :
    Takes ahead (size >>= f) Q :=
  fun tokens b rest hahead hb => h tokens.length tokens b rest hahead hb

lemma takes_expect (k : Kind) : Takes ahead (expect k) fun _ w => w = [k] := by
  refine Takes.anyhow (takes_peek_bind ?_ fun l => ?_)
  · exact takes_fail
  · split
    · next h =>
      cases h
      exact takes_advance rfl
    · exact takes_fail

lemma takes_expect_of_ne {P : Unit → List Kind → Prop} {k l : Kind} (h : l ≠ k) :
    Takes (l :: ahead) (expect k) P := by
  intro tokens a rest hahead hexpect
  cases tokens with
  | nil => cases hexpect
  | cons t tokens =>
    obtain ⟨rfl, -⟩ := List.cons_prefix_cons.mp hahead
    simp [expect, peek?, bind_eq_ok_iff, h, fail] at hexpect

lemma takes_expect_bind {f : Unit → Reader β} {k : Kind}
    (h : Takes [] (f ()) fun b v => Q b (k :: v)) : Takes ahead (expect k >>= f) Q := by
  refine (takes_expect k).bind fun _ w hw => ?_
  subst hw
  exact h

lemma takes_accept (k : Kind) :
    Takes ahead (accept k) fun b w => w = if b then [k] else [] := by
  refine Takes.anyhow (takes_peek_bind (takes_pure rfl) fun l => ?_)
  split
  · next h =>
    cases h
    exact takes_advance_bind (takes_pure rfl)
  · exact takes_pure rfl

lemma takes_accept_bind_ne {f : Bool → Reader β} {k : Kind}
    (hyes : Takes [] (f true) fun b v => Q b (k :: v))
    (hno : Takes [] (f false) fun b v => v.head? ≠ some k → Q b v) :
    Takes ahead (accept k >>= f) Q := by
  intro tokens b rest _ h
  obtain ⟨found, mid, haccept, hb⟩ := bind_eq_ok_iff.mp h
  obtain ⟨taken, rfl, htaken⟩ := takes_accept k tokens found mid List.nil_prefix haccept
  cases found with
  | true =>
    obtain ⟨more, rfl, hQ⟩ := hyes mid b rest List.nil_prefix hb
    exact ⟨taken ++ more, by simp, by simpa [htaken] using hQ⟩
  | false =>
    obtain rfl : taken = [] := List.map_eq_nil_iff.mp htaken
    obtain ⟨more, rfl, hQ⟩ := hno mid b rest List.nil_prefix hb
    refine ⟨more, rfl, hQ fun hhead => ?_⟩
    obtain ⟨t, more, rfl, hkind⟩ : ∃ t ts, more = t :: ts ∧ t.kind = k := by
      cases more with
      | nil => cases hhead
      | cons t more => exact ⟨t, more, rfl, Option.some.inj hhead⟩
    change (if some t.kind = some k then _ else _ : Reader Bool) _ = _ at haccept
    rw [if_pos (by rw [hkind])] at haccept
    cases haccept

lemma takes_accept_bind {f : Bool → Reader β} {k : Kind}
    (hyes : Takes [] (f true) fun b v => Q b (k :: v)) (hno : Takes [] (f false) Q) :
    Takes ahead (accept k >>= f) Q :=
  takes_accept_bind_ne hyes (hno.mono fun _ _ hv _ => hv)

lemma takes_name : Takes ahead name fun text w => w = [.name text] := by
  refine Takes.anyhow (takes_peek_bind takes_fail fun k => ?_)
  split
  · next h =>
    cases h
    exact takes_advance_bind (takes_pure rfl)
  · exact takes_fail

lemma takes_ite {c : Prop} [Decidable c] (hp : c → Takes ahead p P) (hq : ¬ c → Takes ahead q P) :
    Takes ahead (if c then p else q) P := by
  split
  · next h => exact hp h
  · next h => exact hq h

lemma takes_either (hp : Takes ahead p P) (hq : Takes ahead q P) :
    Takes ahead (either p q) P := by
  intro tokens a rest hahead h
  unfold either at h
  split at h
  · next hread =>
    cases h
    exact hp tokens a rest hahead hread
  · split at h
    · next hread =>
      cases h
      exact hq tokens a rest hahead hread
    · cases h

lemma takes_optionalIf (begins : Kind → Bool) (hp : Takes [] p P) :
    Takes ahead (optionalIf begins p) fun o w =>
      (∃ a, o = some a ∧ P a w) ∨ o = none ∧ w = [] := by
  refine Takes.anyhow (takes_peek_bind (takes_pure (Or.inr ⟨rfl, rfl⟩)) fun k => ?_)
  refine takes_ite (fun _ => hp.anyhow.bind fun a w ha => takes_pure ?_)
    (fun _ => takes_pure (Or.inr ⟨rfl, rfl⟩))
  exact Or.inl ⟨a, rfl, by rwa [List.append_nil]⟩

/-- Texts with commas between them, and one behind the last if asked for. -/
def commaList : List (List Kind) → Bool → List Kind
  | [], _ => []
  | [w], trailing => w ++ if trailing then [.mark ","] else []
  | w :: ws, trailing => w ++ .mark "," :: commaList ws trailing

lemma commaList_cons {w : List Kind} {ws : List (List Kind)} (hne : ws ≠ []) (trailing : Bool) :
    commaList (w :: ws) trailing = w ++ .mark "," :: commaList ws trailing := by
  cases ws with
  | nil => exact absurd rfl hne
  | cons v vs => rfl

lemma exists_commaList (w : List Kind) (ws : List (List Kind)) (trailing : Bool) :
    ∃ trailing', w ++ .mark "," :: commaList ws trailing = commaList (w :: ws) trailing' ∧
      (1 < (w :: ws).length ∨ trailing' = true) := by
  cases ws with
  | nil => exact ⟨true, rfl, Or.inr rfl⟩
  | cons v ws => exact ⟨trailing, rfl, Or.inl (by simp)⟩

lemma takes_items (begins : Kind → Bool) (hp : Takes [] p P) :
    Takes ahead (items begins p) fun r w =>
      ∃ ws, ws ≠ [] ∧ List.Forall₂ P r.1 ws ∧ w = commaList ws r.2 := by
  refine takes_size_bind fun n => Takes.anyhow ?_
  induction n with
  | zero => exact takes_fail
  | succ n ih =>
    refine hp.bind fun a w ha => takes_accept_bind ?_ ?_
    · refine (takes_optionalIf begins ih).bind fun o v hv => ?_
      rcases hv with ⟨⟨as, trailing⟩, rfl, ws, hne, hws, rfl⟩ | ⟨rfl, rfl⟩
      · exact takes_pure ⟨w :: ws, by simp, .cons ha hws, by simp [commaList_cons hne]⟩
      · exact takes_pure ⟨[w], by simp, .cons ha .nil, by simp [commaList]⟩
    · exact takes_pure ⟨[w], by simp, .cons ha .nil, by simp [commaList]⟩

lemma takes_itemsUpTo (closing : String) (hp : Takes [] p P) :
    Takes ahead (itemsUpTo closing p) fun r w =>
      ∃ ws, List.Forall₂ P r.1 ws ∧ w = commaList ws r.2 ++ [.mark closing] := by
  refine takes_accept_bind (takes_pure ⟨[], .nil, rfl⟩) ?_
  refine (takes_items _ hp).bind fun r w hw => takes_expect_bind ?_
  obtain ⟨ws, -, hws, rfl⟩ := hw
  exact takes_pure ⟨ws, hws, by simp⟩

/-! ### Refused tokens -/

/-- The reader fails if a token of this kind comes next. -/
def Refuses (k : Kind) (p : Reader α) : Prop :=
  Takes [k] p fun _ _ => False

lemma Refuses.bind {k : Kind} (h : Refuses k p) : Refuses k (p >>= f) :=
  Takes.bind h fun _ _ hw => hw.elim

/-- The reader finds nothing and takes nothing if a token of this kind comes next. -/
def Declines (k : Kind) (p : Reader Bool) : Prop :=
  Takes [k] p fun found w => found = false ∧ w = []

lemma declines_accept {k l : Kind} (h : k ≠ l) : Declines k (accept l) := by
  refine takes_peek_ahead (takes_ite (fun heq => absurd (Option.some.inj heq) h) fun _ => ?_)
  exact takes_pure ⟨rfl, rfl⟩

lemma Declines.bind {p : Reader Bool} {f : Bool → Reader β} {k : Kind} (h : Declines k p)
    (hf : Refuses k (f false)) : Refuses k (p >>= f) := by
  refine Takes.bind_ahead h fun found w hw => ?_
  obtain ⟨rfl, rfl⟩ := hw
  exact hf

lemma refuses_size_bind {f : Nat → Reader β} {k : Kind} (h : ∀ n, Refuses k (f n)) :
    Refuses k (size >>= f) :=
  takes_size_bind h

lemma refuses_items {begins : Kind → Bool} {k : Kind} (h : Refuses k p) :
    Refuses k (items begins p) := by
  refine refuses_size_bind fun n => ?_
  cases n with
  | zero => exact takes_fail
  | succ n => exact h.bind

/-! ### Languages -/

/-- A set of texts that holds the empty one and some letters, and with two texts the one that puts
them together. -/
class IsLanguage (L : List Kind → Prop) (letter : outParam (Kind → Bool)) : Prop where
  nil : L []
  singleton : ∀ {k}, letter k = true → L [k]
  append : ∀ {v w}, L v → L w → L (v ++ w)

/-- A text of letters only. -/
def Free (letter : Kind → Bool) (w : List Kind) : Prop :=
  ∀ k ∈ w, letter k = true

instance (letter : Kind → Bool) : IsLanguage (Free letter) letter where
  nil := by simp [Free]
  singleton hk := by simpa [Free] using hk
  append hv hw := fun k hk => (List.mem_append.mp hk).elim (hv k) (hw k)

/-- What the reader takes belongs to a language. -/
def Within (L : List Kind → Prop) (p : Reader α) : Prop :=
  Takes [] p fun _ w => L w

variable {L : List Kind → Prop} {letter : Kind → Bool} [IsLanguage L letter]

include letter

lemma IsLanguage.cons {k : Kind} {w : List Kind} (hk : letter k = true) (hw : L w) : L (k :: w) :=
  append (singleton hk) hw

lemma within_pure (a : α) : Within L (pure a) :=
  takes_pure IsLanguage.nil

omit letter [IsLanguage L letter] in
lemma within_fail : Within L (fail : Reader α) :=
  takes_fail

lemma within_bind (hp : Within L p) (hf : ∀ a, Within L (f a)) : Within L (p >>= f) := by
  refine Takes.bind hp fun a w hw => (hf a).mono fun b v hv => IsLanguage.append hw hv

omit letter [IsLanguage L letter] in
lemma within_ite {c : Prop} [Decidable c] (hp : Within L p) (hq : Within L q) :
    Within L (if c then p else q) :=
  takes_ite (fun _ => hp) (fun _ => hq)

lemma within_size : Within L size :=
  fun _ _ _ _ h => by cases h; exact ⟨[], rfl, IsLanguage.nil⟩

lemma within_peek : Within L peek? :=
  fun _ _ _ _ h => by cases h; exact ⟨[], rfl, IsLanguage.nil⟩

lemma within_expect {k : Kind} (hk : letter k = true) : Within L (expect k) :=
  (takes_expect k).mono fun _ _ hw => hw ▸ IsLanguage.singleton hk

lemma within_accept_bind {f : Bool → Reader β} {k : Kind} (hk : letter k = true)
    (hyes : Within L (f true)) (hno : Within L (f false)) : Within L (accept k >>= f) :=
  takes_accept_bind (Takes.mono hyes fun _ _ hw => IsLanguage.cons hk hw) hno

lemma within_accept {k : Kind} (hk : letter k = true) : Within L (accept k) := by
  rw [← bind_pure (accept k)]
  exact within_accept_bind hk (within_pure true) (within_pure false)

lemma within_name (h : ∀ text, letter (.name text) = true) : Within L name :=
  takes_name.mono fun text _ hw => hw ▸ IsLanguage.singleton (h text)

lemma within_optionalIf {begins : Kind → Bool} (hp : Within L p) :
    Within L (optionalIf begins p) := by
  refine (takes_optionalIf begins hp).mono fun o w hw => ?_
  rcases hw with ⟨a, -, hw⟩ | ⟨-, rfl⟩
  · exact hw
  · exact IsLanguage.nil

lemma within_repeatWithin {p : Reader Bool} (hp : Within L p) (n : Nat) :
    Within L (repeatWithin p n) := by
  induction n with
  | zero => exact within_pure ()
  | succ n ih => exact within_bind hp fun b => within_ite ih (within_pure ())

lemma within_whileFound {p : Reader Bool} (hp : Within L p) : Within L (whileFound p) :=
  within_bind within_size (within_repeatWithin hp)

/-- The first of the rounds is known by the kind ahead, and the others follow if it found
something. -/
lemma takes_whileFound_ahead {p : Reader Bool} {k : Kind} {F : Bool → List Kind → Prop}
    (hfirst : Takes [k] p F) (hp : Within L p) :
    Takes [k] (whileFound p) fun _ w =>
      ∃ b u v, w = u ++ v ∧ F b u ∧ L v ∧ (b = false → v = []) := by
  have hrounds : ∀ n, Takes [k] (p >>= fun b => if b then repeatWithin p n else pure ())
      fun _ w => ∃ b u v, w = u ++ v ∧ F b u ∧ L v ∧ (b = false → v = []) := by
    intro n
    refine hfirst.bind fun b u hu => ?_
    cases b with
    | true => exact (within_repeatWithin hp n).mono fun _ v hv => ⟨true, u, v, rfl, hu, hv, nofun⟩
    | false => exact takes_pure ⟨false, u, [], rfl, hu, IsLanguage.nil, fun _ => rfl⟩
  intro tokens a rest hahead h
  cases tokens with
  | nil => simp at hahead
  | cons t tokens => exact hrounds tokens.length (t :: tokens) a rest hahead h

omit letter [IsLanguage L letter] in
lemma forall_mem_of_forall₂ {as : List α} {ws : List (List Kind)}
    (h : List.Forall₂ (fun _ w => L w) as ws) : ∀ w ∈ ws, L w := by
  induction h with
  | nil => simp
  | cons hw _ ih => exact List.forall_mem_cons.mpr ⟨hw, ih⟩

lemma commaList_mem (hcomma : letter (.mark ",") = true) {ws : List (List Kind)}
    (h : ∀ w ∈ ws, L w) (trailing : Bool) : L (commaList ws trailing) := by
  induction ws with
  | nil => exact IsLanguage.nil
  | cons w ws ih =>
    obtain ⟨hw, hws⟩ := List.forall_mem_cons.mp h
    cases ws with
    | nil =>
      refine IsLanguage.append hw ?_
      cases trailing with
      | true => exact IsLanguage.singleton hcomma
      | false => exact IsLanguage.nil
    | cons v ws => exact IsLanguage.append hw (IsLanguage.cons hcomma (ih hws))

lemma within_items {begins : Kind → Bool} (hcomma : letter (.mark ",") = true)
    (hp : Within L p) : Within L (items begins p) := by
  refine (takes_items begins hp).mono fun r w hw => ?_
  obtain ⟨ws, -, hws, rfl⟩ := hw
  exact commaList_mem hcomma (forall_mem_of_forall₂ hws) r.2

end ImportFence.Source.Reader
