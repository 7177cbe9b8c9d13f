import ImportFence.Proofs.FirstFault

/-!
# Numbers and tags determine each other

A table that is filled call by call keeps the names of its tags and their numbers in two stores. The
stores stay inverse to each other whatever tags come, new ones, known ones and blank ones: a tag is
answered with the place of its name, and no later call changes that.
-/

namespace ImportFence

namespace TagId

lemma eq_of_ofPlace_lt {i : Nat} (h : ofPlace i < last) : ofPlace i = i := by
  rcases Nat.le_total i last with hi | hi
  · exact ofPlace_of_le hi
  · rw [ofPlace, Nat.min_eq_right hi] at h
    exact absurd h (lt_irrefl last)

end TagId

namespace TagTable

/-- A call with a tag: its answer, and the table that it leaves. A refused tag changes nothing. -/
def call (t : TagTable) (raw : String) : Except TagError TagId × TagTable :=
  match t.intern raw with
  | .ok (id, t') => (.ok id, t')
  | .error e => (.error e, t)

/-- One call after the other: their answers, and the table that they leave. -/
def calls (t : TagTable) : List String → List (Except TagError TagId) × TagTable
  | [] => ([], t)
  | raw :: raws =>
    let (answer, next) := t.call raw
    let (answers, t') := next.calls raws
    (answer :: answers, t')

/-- The tags that are not blank, trimmed, each where it comes first. -/
def distinctTags (raws : List String) : List String :=
  firstOccurrences ((raws.map Text.trim).filter (· ≠ ""))

/-- What a table says to a call that leaves it as it is. -/
def answer (t : TagTable) (raw : String) : Except TagError TagId :=
  match t.get? raw with
  | some id => .ok id
  | none => .error .blank

lemma answer_eq_ok_iff {t : TagTable} {raw : String} {id : TagId} :
    t.answer raw = .ok id ↔ t.get? raw = some id := by
  rw [answer]
  cases t.get? raw <;> simp

section Step

variable {t : TagTable} {raw : String}

lemma exists_intern_error_iff : (∃ e, t.intern raw = .error e) ↔ Text.trim raw = "" := by
  constructor
  · rintro ⟨e, he⟩
    by_contra hblank
    obtain ⟨id, t', hok⟩ := t.exists_intern hblank
    rw [hok] at he
    cases he
  · intro hblank
    exact ⟨_, intern_of_blank t hblank⟩

lemma exists_intern_known (ht : t.WellFormed) (h : Text.trim raw ∈ t.names) :
    ∃ id, t.get? raw = some id ∧ t.intern raw = .ok (id, t) := by
  obtain ⟨i, hi⟩ := List.mem_iff_getElem?.mp h
  have hget := get?_of_getElem? ht hi
  exact ⟨_, hget, intern_of_known (ht.nonblank _ h) hget⟩

lemma exists_intern_new (ht : t.WellFormed) (hsize : t.size ≤ TagId.last)
    (hblank : Text.trim raw ≠ "") (hfresh : Text.trim raw ∉ t.names) :
    ∃ t', t.intern raw = .ok (t.size, t') ∧ t'.names = t.names ++ [Text.trim raw] := by
  have hnew := intern_of_new hblank ((get?_eq_none_iff ht).mpr hfresh)
  rw [TagId.ofPlace_of_le hsize] at hnew
  exact ⟨_, hnew, rfl⟩

lemma call_of_blank (t : TagTable) (h : Text.trim raw = "") : t.call raw = (.error .blank, t) := by
  rw [call, intern_of_blank t h]

lemma get?_of_blank (ht : t.WellFormed) (h : Text.trim raw = "") : t.get? raw = none := by
  rw [get?_eq_none_iff ht, h]
  exact fun hmem => ht.nonblank "" hmem rfl

lemma names_call (ht : t.WellFormed) (raw : String) :
    (t.call raw).2.names =
      if Text.trim raw = "" ∨ Text.trim raw ∈ t.names then t.names
      else t.names ++ [Text.trim raw] := by
  by_cases hblank : Text.trim raw = ""
  · rw [call_of_blank t hblank, if_pos (Or.inl hblank)]
  · obtain ⟨id, t', hintern⟩ := t.exists_intern hblank
    rw [call, hintern]
    obtain ⟨-, ⟨hget, rfl⟩ | ⟨hget, -, rfl⟩⟩ := intern_cases hintern
    · obtain ⟨i, hi, -⟩ := get?_eq_some ht hget
      rw [if_pos (Or.inr (List.mem_of_getElem? hi))]
    · have hfresh := (get?_eq_none_iff ht).mp hget
      rw [if_neg (by simp [hblank, hfresh])]

/-- What one call does: the stores stay in step, the table only grows, and the answer is what the
table says afterwards. -/
lemma call_step (ht : t.WellFormed) (raw : String) :
    (t.call raw).2.WellFormed ∧ t.names <+: (t.call raw).2.names ∧
      (t.call raw).1 = (t.call raw).2.answer raw := by
  by_cases hblank : Text.trim raw = ""
  · rw [call_of_blank t hblank]
    exact ⟨ht, List.prefix_rfl, by rw [answer, get?_of_blank ht hblank]⟩
  · obtain ⟨id, t', hintern⟩ := t.exists_intern hblank
    obtain ⟨hwf, hgrow, hid⟩ := intern_ok ht hintern
    rw [call, hintern]
    exact ⟨hwf, hgrow, (answer_eq_ok_iff.mpr hid).symm⟩

lemma answer_mono {t' : TagTable} (ht : t.WellFormed) (ht' : t'.WellFormed)
    (hgrow : t.names <+: t'.names) (h : Text.trim raw = "" ∨ Text.trim raw ∈ t.names) :
    t'.answer raw = t.answer raw := by
  rcases h with hblank | hmem
  · rw [answer, answer, get?_of_blank ht hblank, get?_of_blank ht' hblank]
  · obtain ⟨i, hi⟩ := List.mem_iff_getElem?.mp hmem
    have hget := get?_of_getElem? ht hi
    rw [answer, answer, hget, get?_mono hgrow ht ht' hget]

end Step

/-! ### Runs -/

section Run

variable {t : TagTable}

lemma calls_cons (t : TagTable) (raw : String) (raws : List String) :
    t.calls (raw :: raws) =
      ((t.call raw).1 :: ((t.call raw).2.calls raws).1, ((t.call raw).2.calls raws).2) :=
  rfl

/-- What a run does: the stores stay in step, the table only grows, and every call was answered
with what the table says in the end. -/
theorem calls_run (ht : t.WellFormed) (raws : List String) :
    (t.calls raws).2.WellFormed ∧ t.names <+: (t.calls raws).2.names ∧
      (t.calls raws).1 = raws.map (t.calls raws).2.answer := by
  induction raws generalizing t with
  | nil => exact ⟨ht, List.prefix_rfl, rfl⟩
  | cons raw raws ih =>
    obtain ⟨hnext, hgrow, hanswer⟩ := call_step ht raw
    obtain ⟨hwf, hgrow', hanswers⟩ := ih hnext
    -- the tag is blank or has a name by now, so that its answer is final
    have hcalled : Text.trim raw = "" ∨ Text.trim raw ∈ (t.call raw).2.names := by
      rw [names_call ht]
      split
      · assumption
      · simp
    rw [calls_cons, List.map_cons, ← hanswers, hanswer,
      ← answer_mono hnext hwf hgrow' hcalled]
    exact ⟨hwf, hgrow.trans hgrow', rfl⟩

lemma names_calls (ht : t.WellFormed) (raws : List String) :
    (t.calls raws).2.names = ((raws.map Text.trim).filter (· ≠ "")).foldl
      (fun kept n => if n ∈ kept then kept else kept ++ [n]) t.names := by
  induction raws generalizing t with
  | nil => rfl
  | cons raw raws ih =>
    obtain ⟨hnext, -, -⟩ := call_step ht raw
    rw [calls_cons, ih hnext, names_call ht, List.map_cons]
    by_cases hblank : Text.trim raw = ""
    · rw [if_pos (Or.inl hblank), List.filter_cons_of_neg (by simpa using hblank)]
    · rw [List.filter_cons_of_pos (by simpa using hblank), List.foldl_cons]
      simp only [hblank, false_or]

lemma names_calls_empty (raws : List String) : (empty.calls raws).2.names = distinctTags raws :=
  names_calls empty_wellFormed raws

lemma mem_distinctTags {raws : List String} {n : String} :
    n ∈ distinctTags raws ↔ n ≠ "" ∧ ∃ raw ∈ raws, Text.trim raw = n := by
  rw [distinctTags, firstOccurrences_eq_eraseDups, List.mem_eraseDups]
  simp [and_comm]

lemma name_of_isPrefix {t' : TagTable} (hgrow : t.names <+: t'.names) {id : TagId}
    (h : id < t.size) : t'.name id = t.name id := by
  obtain ⟨rest, hrest⟩ := hgrow
  rw [name, name, ← hrest, List.getElem?_append_left h]

lemma get?_eq_some_iff_of_isPrefix {t' : TagTable} (ht : t.WellFormed) (ht' : t'.WellFormed)
    (hgrow : t.names <+: t'.names) (hsize : t.size ≤ TagId.last) {id : TagId} (h : id < t.size)
    (raw : String) : t'.get? raw = some id ↔ t.get? raw = some id := by
  constructor
  · intro hget
    obtain ⟨i, hi, hid⟩ := get?_eq_some ht' hget
    -- the number is smaller than the greatest one, which places too far behind would share
    have hplace : id = i := by
      rw [hid]
      exact TagId.eq_of_ofPlace_lt (hid ▸ lt_of_lt_of_le h hsize)
    subst hplace
    obtain ⟨rest, hrest⟩ := hgrow
    rw [← hrest, List.getElem?_append_left h] at hi
    rw [get?_of_getElem? ht hi, ← hid]
  · exact get?_mono hgrow ht ht'

/-- The numbers that a table has for the tags it was filled with have no gap. -/
lemma ok_mem_map_answer_iff {raws : List String} (ht : t.WellFormed)
    (hsize : t.size ≤ TagId.last) (hnames : t.names = distinctTags raws) {id : TagId} :
    .ok id ∈ raws.map t.answer ↔ id < t.size := by
  rw [List.mem_map]
  constructor
  · rintro ⟨raw, -, hraw⟩
    exact ((get?_eq_some_iff ht hsize).mp (answer_eq_ok_iff.mp hraw)).1
  · intro hid
    have hmem : t.name id ∈ t.names := by
      rw [name, List.getElem?_eq_getElem hid]
      exact List.getElem_mem hid
    rw [hnames, mem_distinctTags] at hmem
    obtain ⟨-, raw, hraw, hname⟩ := hmem
    have hget := (get?_eq_some_iff ht hsize).mpr ⟨hid, hname.symm⟩
    exact ⟨raw, hraw, answer_eq_ok_iff.mpr hget⟩

lemma eq_iff_trim_eq (ht : t.WellFormed) (hsize : t.size ≤ TagId.last) {a b : String}
    {x y : TagId} (ha : t.get? a = some x) (hb : t.get? b = some y) :
    x = y ↔ Text.trim a = Text.trim b := by
  constructor
  · rintro rfl
    exact trim_eq_of_get?_eq ht hsize ha hb
  · intro htrim
    rw [get?_congr htrim, hb] at ha
    exact (Option.some.inj ha).symm

end Run

/-- The tags of some calls and the numbers they were answered with determine each other through the
table that the calls leave. -/
structure Numbers (raws : List String) (answers : List (Except TagError TagId)) (t : TagTable) :
    Prop where
  names_eq : t.names = distinctTags raws
  nodup : t.names.Nodup
  trimmed : ∀ n ∈ t.names, Text.trim n = n
  nonblank : ∀ n ∈ t.names, n ≠ ""
  /-- Every call was answered with what the table says in the end. -/
  answers_eq : answers = raws.map t.answer
  /-- The numbers that were handed out have no gap. -/
  dense : ∀ id, .ok id ∈ answers ↔ id < t.size
  /-- The two stores are inverse to each other. -/
  inverse : ∀ raw id, t.get? raw = some id ↔ id < t.size ∧ t.name id = Text.trim raw
  refused : ∀ raw, ((∃ e, t.intern raw = .error e) ↔ Text.trim raw = "") ∧
    (Text.trim raw = "" → (t.call raw).2 = t)
  known : ∀ raw, Text.trim raw ∈ t.names → ∃ id, t.get? raw = some id ∧ t.intern raw = .ok (id, t)
  appended : ∀ raw, Text.trim raw ≠ "" → Text.trim raw ∉ t.names →
    ∃ t', t.intern raw = .ok (t.size, t') ∧ t'.names = t.names ++ [Text.trim raw]
  /-- Later calls change nothing about the numbers that there are. -/
  stable : ∀ later id, id < t.size → (t.calls later).2.name id = t.name id ∧
    ∀ raw, (t.calls later).2.get? raw = some id ↔ t.get? raw = some id
  /-- Two calls have the same number exactly if their tags differ by white space only. -/
  told_apart : ∀ (i j : Nat) (a b : String) (x y : TagId), raws[i]? = some a → raws[j]? = some b →
    answers[i]? = some (.ok x) → answers[j]? = some (.ok y) → (x = y ↔ Text.trim a = Text.trim b)

/-- A table that is filled from nothing, call by call, numbers the tags of the calls, as long as
there are numbers left for them. -/
theorem calls_numbers (raws : List String) (hfew : (distinctTags raws).length ≤ TagId.last) :
    Numbers raws (empty.calls raws).1 (empty.calls raws).2 := by
  obtain ⟨hwf, -, hanswers⟩ := calls_run empty_wellFormed raws
  have hnames := names_calls_empty raws
  rw [hanswers]
  generalize (empty.calls raws).2 = t at hwf hnames ⊢
  have hsize : t.size ≤ TagId.last := by
    rw [size, hnames]
    exact hfew
  have hget : ∀ {i : Nat} {a : String} {x : TagId}, raws[i]? = some a →
      (raws.map t.answer)[i]? = some (.ok x) → t.get? a = some x := by
    intro i a x ha hx
    rw [List.getElem?_map, ha] at hx
    exact answer_eq_ok_iff.mp (Option.some.inj hx)
  exact {
    names_eq := hnames
    nodup := hwf.nodup
    trimmed := hwf.trimmed
    nonblank := hwf.nonblank
    answers_eq := rfl
    dense := fun id => ok_mem_map_answer_iff hwf hsize hnames
    inverse := fun raw id => get?_eq_some_iff hwf hsize
    refused := fun raw => ⟨exists_intern_error_iff, fun h => by rw [call_of_blank t h]⟩
    known := fun raw h => exists_intern_known hwf h
    appended := fun raw hblank hfresh => exists_intern_new hwf hsize hblank hfresh
    stable := by
      intro later id hid
      obtain ⟨hlater, hgrow, -⟩ := calls_run hwf later
      exact ⟨name_of_isPrefix hgrow hid,
        get?_eq_some_iff_of_isPrefix hwf hlater hgrow hsize hid⟩
    told_apart := fun i j a b x y ha hb hx hy =>
      eq_iff_trim_eq hwf hsize (hget ha hx) (hget hb hy) }

end TagTable

namespace Sample

/-- Tags that repeat each other up to white space, blank ones, and the name that stands for none. -/
def tagCalls : List String := [" core", "", "app", "core\t", "?", "  ", "app "]

def tagAnswers : List (Except TagError TagId) :=
  [.ok 0, .error .blank, .ok 1, .ok 0, .ok 2, .error .blank, .ok 1]

def tagTable : TagTable :=
  ⟨["core", "app", "?"], [("?", 2), ("app", 1), ("core", 0)]⟩

end Sample

theorem TagTable.calls_numbers_sample :
    (distinctTags Sample.tagCalls).length ≤ TagId.last ∧
    empty.calls Sample.tagCalls = (Sample.tagAnswers, Sample.tagTable) ∧
    Numbers Sample.tagCalls Sample.tagAnswers Sample.tagTable := by
  have hfew : (distinctTags Sample.tagCalls).length ≤ TagId.last := by decide +kernel
  have hcalls : empty.calls Sample.tagCalls = (Sample.tagAnswers, Sample.tagTable) := by
    decide +kernel
  have hnumbers := calls_numbers Sample.tagCalls hfew
  rw [hcalls] at hnumbers
  exact ⟨hfew, hcalls, hnumbers⟩

end ImportFence
