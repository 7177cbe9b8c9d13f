import ImportFence.Proofs.SourceImports
import Mathlib.Data.List.Flatten

/-!
# Suppressed imports

Of the directives recorded for a line the first one stays, and a search over some lines gives the
one of the least line covered. Comments are recorded from the last one back; no line has two of them,
so of two that cover the same line, one behind code was recorded before one on the line above. So
an import statement is suppressed when a directive covers one of its lines.
-/

namespace ImportFence

namespace SuppressedLines

/-- A directive to record: the line that it was found on, and whether it stands alone there. -/
structure Call where
  line : Nat
  standalone : Bool
  directive : Directive

/-- The line that a recorded directive covers. -/
def Call.covers (c : Call) : Nat :=
  if c.standalone then c.line + 1 else c.line

/-- What directives recorded one after the other cover. -/
def recordAll (calls : List Call) : SuppressedLines :=
  calls.foldl (fun s c => s.record c.line c.standalone c.directive) empty

/-- Entries stand by their lines, and no line has two. -/
def Ascending (entries : List (Nat × Directive)) : Prop :=
  entries.Pairwise fun a b => a.1 < b.1

variable {entries : List (Nat × Directive)}

lemma mem_insert (h : Ascending entries) (line : Nat) (d : Directive) (x : Nat × Directive) :
    x ∈ insert line d entries ↔
      x ∈ entries ∨ x = (line, d) ∧ ∀ y ∈ entries, y.1 ≠ line := by
  induction entries with
  | nil => simp [SuppressedLines.insert]
  | cons y entries ih =>
    obtain ⟨hy, hentries⟩ := List.pairwise_cons.mp h
    obtain ⟨l, e⟩ := y
    rw [SuppressedLines.insert]
    split
    · next hlt =>
      have hfree : ∀ y ∈ (l, e) :: entries, y.1 ≠ line := by
        refine List.forall_mem_cons.mpr ⟨by dsimp only; omega, fun y hmem => ?_⟩
        have := hy y hmem
        dsimp only at this
        omega
      rw [List.mem_cons, or_comm]
      exact or_congr_right ⟨fun hx => ⟨hx, hfree⟩, fun hx => hx.1⟩
    split
    · next heq =>
      refine ⟨Or.inl, fun hx => hx.resolve_right fun hnew => ?_⟩
      exact hnew.2 _ List.mem_cons_self heq.symm
    · next hge hne =>
      rw [List.mem_cons, List.mem_cons, ih hentries, List.forall_mem_cons, or_assoc]
      exact or_congr_right (or_congr_right (and_congr_right fun _ =>
        ⟨fun hfree => ⟨fun heq => hne heq.symm, hfree⟩, fun hfree => hfree.2⟩))

lemma ascending_insert (h : Ascending entries) (line : Nat) (d : Directive) :
    Ascending (insert line d entries) := by
  induction entries with
  | nil => exact List.pairwise_singleton _ _
  | cons y entries ih =>
    obtain ⟨hy, hentries⟩ := List.pairwise_cons.mp h
    obtain ⟨l, e⟩ := y
    rw [SuppressedLines.insert]
    split
    · next hlt =>
      refine List.pairwise_cons.mpr ⟨?_, h⟩
      exact List.forall_mem_cons.mpr ⟨hlt, fun y hmem => Nat.lt_trans hlt (hy y hmem)⟩
    split
    · exact h
    · next hge hne =>
      refine List.pairwise_cons.mpr ⟨fun x hx => ?_, ih hentries⟩
      rcases (mem_insert hentries line d x).mp hx with hx | ⟨rfl, -⟩
      · exact hy x hx
      · dsimp only
        omega

lemma recordAll_concat (calls : List Call) (c : Call) :
    recordAll (calls ++ [c]) = (recordAll calls).record c.line c.standalone c.directive :=
  List.foldl_concat ..

lemma ascending_recordAll (calls : List Call) : Ascending (recordAll calls).entries := by
  induction calls using List.reverseRecOn with
  | nil => exact List.Pairwise.nil
  | append_singleton calls c ih =>
    rw [recordAll_concat]
    exact ascending_insert ih _ _

lemma mem_recordAll (calls : List Call) (line : Nat) (d : Directive) :
    (line, d) ∈ (recordAll calls).entries ↔
      ∃ c, calls.find? (·.covers = line) = some c ∧ c.directive = d := by
  induction calls using List.reverseRecOn generalizing d with
  | nil => simp [recordAll, empty]
  | append_singleton calls c ih =>
    have hfree : (∀ y ∈ (recordAll calls).entries, y.1 ≠ line) ↔
        calls.find? (·.covers = line) = none := by
      rw [Option.eq_none_iff_forall_ne_some]
      constructor
      · intro hfree c hc
        exact hfree (line, c.directive) ((ih c.directive).mpr ⟨c, hc, rfl⟩) rfl
      · rintro hnone ⟨l, e⟩ hmem rfl
        obtain ⟨c, hc, -⟩ := (ih e).mp hmem
        exact hnone c hc
    have hstep : (line, d) ∈ (recordAll (calls ++ [c])).entries ↔
        (line, d) ∈ (recordAll calls).entries ∨ (line = c.covers ∧ d = c.directive) ∧
          calls.find? (·.covers = line) = none := by
      rw [recordAll_concat, record, mem_insert (ascending_recordAll calls), ← hfree,
        Prod.mk.injEq]
      refine or_congr_right (and_congr_right ?_)
      rintro ⟨rfl, -⟩
      rfl
    rw [hstep, ih, List.find?_append]
    cases hfound : calls.find? (·.covers = line) with
    | some c' => simp
    | none =>
      by_cases hline : c.covers = line <;> simp [hline, eq_comm]

lemma find?_eq_some_iff {s : SuppressedLines} (h : Ascending s.entries) (first last : Nat)
    (d : Directive) : s.find? first last = some d ↔ ∃ line, (line, d) ∈ s.entries ∧
      (first ≤ line ∧ line ≤ last) ∧
      ∀ x ∈ s.entries, first ≤ x.1 → x.1 ≤ last → line ≤ x.1 := by
  rw [SuppressedLines.find?, Option.map_eq_some_iff]
  constructor
  · rintro ⟨⟨line, d⟩, hfound, rfl⟩
    obtain ⟨hinside, front, back, hentries, hfront⟩ := List.find?_eq_some_iff_append.mp hfound
    have hinside : first ≤ line ∧ line ≤ last := by simpa using hinside
    refine ⟨line, by simp [hentries], hinside, fun x hx hfirst hlast => ?_⟩
    rw [hentries] at hx h
    rcases List.mem_append.mp hx with hx | hx
    · have houtside := hfront x hx
      simp [hfirst, hlast] at houtside
    · rcases List.mem_cons.mp hx with rfl | hx
      · exact le_rfl
      · exact Nat.le_of_lt ((List.pairwise_cons.mp (List.pairwise_append.mp h).2.1).1 x hx)
  · rintro ⟨line, hmem, hinside, hleast⟩
    refine ⟨(line, d), ?_, rfl⟩
    obtain ⟨front, back, hentries⟩ := List.append_of_mem hmem
    refine List.find?_eq_some_iff_append.mpr ⟨by simpa using hinside, front, back, hentries, ?_⟩
    intro x hx
    rw [hentries] at h
    have hlt : x.1 < line := (List.pairwise_append.mp h).2.2 x hx _ List.mem_cons_self
    have hle := hleast x (by simp [hentries, hx])
    simp
    omega

lemma find?_eq_none_iff (s : SuppressedLines) (first last : Nat) :
    s.find? first last = none ↔ ∀ x ∈ s.entries, ¬ (first ≤ x.1 ∧ x.1 ≤ last) := by
  simp [SuppressedLines.find?]

lemma forall_mem_recordAll {calls : List Call} (P : Nat → Prop) :
    (∀ x ∈ (recordAll calls).entries, P x.1) ↔ ∀ c ∈ calls, P c.covers := by
  constructor
  · intro h c hc
    have hsome : (calls.find? (·.covers = c.covers)).isSome :=
      List.find?_isSome.mpr ⟨c, hc, by simp⟩
    obtain ⟨first, hfirst⟩ := Option.isSome_iff_exists.mp hsome
    exact h _ ((mem_recordAll calls _ _).mpr ⟨first, hfirst, rfl⟩)
  · rintro h ⟨line, d⟩ hx
    obtain ⟨c, hc, -⟩ := (mem_recordAll calls line d).mp hx
    obtain rfl : c.covers = line := by simpa using List.find?_some hc
    exact h c (List.mem_of_find?_eq_some hc)

lemma find?_recordAll (calls : List Call) (first last : Nat) :
    ((recordAll calls).find? first last = none ↔
      ∀ c ∈ calls, ¬ (first ≤ c.covers ∧ c.covers ≤ last)) ∧
    ∀ d, (recordAll calls).find? first last = some d ↔
      ∃ front c back, calls = front ++ c :: back ∧ c.directive = d ∧
        (first ≤ c.covers ∧ c.covers ≤ last) ∧
        (∀ other ∈ calls, first ≤ other.covers → other.covers ≤ last → c.covers ≤ other.covers) ∧
        ∀ other ∈ front, other.covers ≠ c.covers := by
  refine ⟨(find?_eq_none_iff _ _ _).trans (forall_mem_recordAll fun l => ¬ (first ≤ l ∧ l ≤ last)),
    fun d => ?_⟩
  rw [find?_eq_some_iff (ascending_recordAll calls)]
  constructor
  · rintro ⟨line, hmem, hinside, hleast⟩
    obtain ⟨c, hc, rfl⟩ := (mem_recordAll calls line d).mp hmem
    obtain ⟨hline, front, back, hcalls, hfront⟩ := List.find?_eq_some_iff_append.mp hc
    obtain rfl : c.covers = line := by simpa using hline
    refine ⟨front, c, back, hcalls, rfl, hinside, ?_, by simpa using hfront⟩
    exact (forall_mem_recordAll fun l => first ≤ l → l ≤ last → c.covers ≤ l).mp hleast
  · rintro ⟨front, c, back, hcalls, rfl, hinside, hleast, hfront⟩
    refine ⟨c.covers, (mem_recordAll calls _ _).mpr ⟨c, ?_, rfl⟩, hinside,
      (forall_mem_recordAll fun l => first ≤ l → l ≤ last → c.covers ≤ l).mpr hleast⟩
    exact List.find?_eq_some_iff_append.mpr ⟨by simp, front, back, hcalls, by simpa using hfront⟩

end SuppressedLines

namespace Source

namespace Comment

/-- Something other than blanks stands before a comment on its line. -/
def Trailing (source : List Char) (c : Comment) : Prop :=
  ∃ ch ∈ Position.lastLine (source.take c.start.offset), Text.isPlainBlank ch = false

instance (source : List Char) (c : Comment) : Decidable (c.Trailing source) :=
  inferInstanceAs (Decidable (∃ ch ∈ _, _))

/-- The line that a comment covers if it is a directive. -/
def covers (source : List Char) (c : Comment) : Nat :=
  if c.Trailing source then c.start.line else c.start.line + 1

/-- A comment is the one that counts for some lines: a directive that covers the least of them that
is covered. It stands behind code if another one covers that line too, and the other one does not. -/
structure Governs (source : List Char) (comments : List Comment) (first last : Nat) (c : Comment)
    (d : Directive) : Prop where
  mem : c ∈ comments
  directive : Directive.ofComment? c.text = some d
  inside : first ≤ c.covers source ∧ c.covers source ≤ last
  least : ∀ other ∈ comments, (Directive.ofComment? other.text).isSome →
    first ≤ other.covers source → other.covers source ≤ last → c.covers source ≤ other.covers source
  trailing : ∀ other ∈ comments, (Directive.ofComment? other.text).isSome →
    other.covers source = c.covers source → other ≠ c →
    c.Trailing source ∧ ¬ other.Trailing source

/-- Of two comments on different lines that cover the same line, the later one stands behind code. -/
lemma trailing_of_covers_eq {source : List Char} {a b : Comment}
    (hline : a.start.line < b.start.line) (h : a.covers source = b.covers source) :
    b.Trailing source ∧ ¬ a.Trailing source := by
  unfold covers at h
  by_cases ha : a.Trailing source <;> by_cases hb : b.Trailing source
  · simp only [ha, hb, if_true] at h
    omega
  · simp only [ha, hb, if_true, if_false] at h
    omega
  · exact ⟨hb, ha⟩
  · simp only [ha, hb, if_false] at h
    omega

lemma startsItsLine_iff (source : List Char) (c : Comment) :
    startsItsLine source c.start = true ↔ ¬ c.Trailing source := by
  simp [startsItsLine, Trailing, Position.lastLine]

/-- A comment as it is recorded, if it is a directive. -/
def call? (source : List Char) (c : Comment) : Option SuppressedLines.Call :=
  (Directive.ofComment? c.text).map fun d => ⟨c.start.line, startsItsLine source c.start, d⟩

lemma call?_eq_some {source : List Char} {c : Comment} {call : SuppressedLines.Call}
    (h : c.call? source = some call) :
    Directive.ofComment? c.text = some call.directive ∧ call.covers = c.covers source := by
  obtain ⟨d, hd, rfl⟩ := Option.map_eq_some_iff.mp h
  refine ⟨hd, ?_⟩
  have hstarts := startsItsLine_iff source c
  unfold SuppressedLines.Call.covers covers
  by_cases htrailing : c.Trailing source <;> simp_all

lemma exists_call (source : List Char) (c : Comment) {d : Directive}
    (h : Directive.ofComment? c.text = some d) : ∃ call, c.call? source = some call ∧
      call.directive = d ∧ call.covers = c.covers source := by
  have hcall : c.call? source = some ⟨c.start.line, startsItsLine source c.start, d⟩ := by
    rw [call?, h]
    rfl
  exact ⟨_, hcall, rfl, (call?_eq_some hcall).2⟩

end Comment

lemma suppressedLines_eq (source : List Char) (root : Statement) :
    suppressedLines source root =
      SuppressedLines.recordAll ((commentsOf root).reverse.filterMap (·.call? source)) := by
  rw [suppressedLines_eq_foldl, SuppressedLines.recordAll, List.foldl_filterMap]
  congr
  funext lines c
  unfold Comment.call?
  cases Directive.ofComment? c.text <;> rfl

section Search

variable {source : List Char} {root : Statement} {first last : Nat} {d : Directive}

/-- What a search over the lines that comments suppress finds is the directive of a comment. Later
comments are recorded first, so it gives way to none that covers the same line. -/
lemma exists_governs (h : (commentsOf root).Pairwise fun a b => a.start.line < b.start.line)
    (hfind : (suppressedLines source root).find? first last = some d) :
    ∃ c, Comment.Governs source (commentsOf root) first last c d := by
  have hlater : (commentsOf root).reverse.Pairwise fun a b => b.start.line < a.start.line :=
    List.pairwise_reverse.mpr h
  rw [suppressedLines_eq, (SuppressedLines.find?_recordAll _ first last).2] at hfind
  obtain ⟨front, call, back, hcalls, rfl, hinside, hleast, hfront⟩ := hfind
  obtain ⟨early, late, hreverse, rfl, hlate⟩ := List.filterMap_eq_append_iff.mp hcalls
  obtain ⟨skipped, c, behind, rfl, hskipped, hc, rfl⟩ := List.filterMap_eq_cons_iff.mp hlate
  obtain ⟨hdirective, hcovers⟩ := Comment.call?_eq_some hc
  rw [hcovers] at hinside hleast hfront
  have hcall : ∀ other : Comment, (Directive.ofComment? other.text).isSome →
      ∃ call, other.call? source = some call ∧ call.covers = other.covers source := by
    intro other hsome
    obtain ⟨e, he⟩ := Option.isSome_iff_exists.mp hsome
    obtain ⟨call, hcall, -, hcovers⟩ := other.exists_call source he
    exact ⟨call, hcall, hcovers⟩
  refine ⟨c, ?_, hdirective, hinside, fun other hother hsome => ?_,
    fun other hother hsome hsame hne => ?_⟩
  · rw [← List.mem_reverse, hreverse]
    simp
  · obtain ⟨call', hcall', hcovers'⟩ := hcall other hsome
    rw [← hcovers']
    exact hleast call' (List.mem_filterMap.mpr ⟨other, List.mem_reverse.mpr hother, hcall'⟩)
  · obtain ⟨call', hcall', hcovers'⟩ := hcall other hsome
    rw [← List.mem_reverse, hreverse, List.mem_append, List.mem_append, List.mem_cons] at hother
    rcases hother with hother | hother | rfl | hother
    · exact absurd (hcovers'.trans hsame)
        (hfront call' (List.mem_filterMap.mpr ⟨other, hother, hcall'⟩))
    · rw [hskipped other hother] at hcall'
      cases hcall'
    · exact absurd rfl hne
    · rw [hreverse] at hlater
      have hline : other.start.line < c.start.line :=
        (List.pairwise_cons.mp (List.pairwise_append.mp (List.pairwise_append.mp hlater).2.1).2.1).1
          other hother
      exact Comment.trailing_of_covers_eq hline hsame

lemma Comment.Governs.find? (h : (commentsOf root).Pairwise fun a b => a.start.line < b.start.line)
    {c : Comment} (hc : Governs source (commentsOf root) first last c d) :
    (suppressedLines source root).find? first last = some d := by
  have hlater : (commentsOf root).reverse.Pairwise fun a b => b.start.line < a.start.line :=
    List.pairwise_reverse.mpr h
  obtain ⟨early, late, hreverse⟩ := List.append_of_mem (List.mem_reverse.mpr hc.mem)
  obtain ⟨call, hcall, hd, hcovers⟩ := c.exists_call source hc.directive
  rw [suppressedLines_eq, (SuppressedLines.find?_recordAll _ first last).2]
  refine ⟨early.filterMap (·.call? source), call, late.filterMap (·.call? source), ?_, hd, ?_, ?_, ?_⟩
  · rw [hreverse, List.filterMap_append, List.filterMap_cons_some hcall]
  · rw [hcovers]
    exact hc.inside
  · intro other hother
    obtain ⟨c', hc', hcall'⟩ := List.mem_filterMap.mp hother
    obtain ⟨hdirective, hcovers'⟩ := call?_eq_some hcall'
    rw [hcovers, hcovers']
    exact hc.least c' (List.mem_reverse.mp hc') (by simp [hdirective])
  · -- a comment that was recorded before stands further down
    intro other hother hsame
    obtain ⟨c', hc', hcall'⟩ := List.mem_filterMap.mp hother
    obtain ⟨hdirective, hcovers'⟩ := call?_eq_some hcall'
    have hmem : c' ∈ commentsOf root := by
      rw [← List.mem_reverse, hreverse]
      exact List.mem_append_left _ hc'
    rw [hreverse] at hlater
    have hline : c.start.line < c'.start.line :=
      (List.pairwise_append.mp hlater).2.2 c' hc' c List.mem_cons_self
    rw [hcovers, hcovers'] at hsame
    have hne : c' ≠ c := by
      rintro rfl
      exact Nat.lt_irrefl _ hline
    exact (trailing_of_covers_eq hline hsame.symm).2
      (hc.trailing c' hmem (by simp [hdirective]) hsame hne).1

lemma isSome_find?_suppressedLines
    (h : (commentsOf root).Pairwise fun a b => a.start.line < b.start.line) :
    ((suppressedLines source root).find? first last).isSome = true ↔
      ∃ c ∈ commentsOf root, (Directive.ofComment? c.text).isSome = true ∧
        first ≤ c.covers source ∧ c.covers source ≤ last := by
  constructor
  · intro hsome
    obtain ⟨d, hd⟩ := Option.isSome_iff_exists.mp hsome
    obtain ⟨c, hc⟩ := exists_governs h hd
    exact ⟨c, hc.mem, by simp [hc.directive], hc.inside⟩
  · rintro ⟨c, hc, hsome, hinside⟩
    obtain ⟨d, hd⟩ := Option.isSome_iff_exists.mp hsome
    obtain ⟨call, hcall, -, hcovers⟩ := c.exists_call source hd
    rw [← Option.ne_none_iff_isSome, suppressedLines_eq]
    intro hnone
    rw [← hcovers] at hinside
    exact (SuppressedLines.find?_recordAll _ first last).1.mp hnone call
      (List.mem_filterMap.mpr ⟨c, List.mem_reverse.mpr hc, hcall⟩) hinside

end Search

/-! ### Lines of an import statement -/

lemma Position.line_le_of_length {source a b c d : List Char} (ha : source = a ++ c)
    (hb : source = b ++ d) (h : a.length ≤ b.length) :
    (start.after a).line ≤ (start.after b).line := by
  obtain ⟨more, rfl⟩ : a <+: b := List.prefix_of_prefix_length_le ⟨c, ha.symm⟩ ⟨d, hb.symm⟩ h
  rw [after_append, line_after (start.after a)]
  exact Nat.le_add_right _ _

lemma WrittenImport.line_le_lastLine {source : List Char} (w : WrittenImport)
    (h : w.tokens.Sublist (Source.tokens (scan source))) : w.start.line ≤ w.lastLine := by
  obtain ⟨t, word, rest, htokens, -, -, hstart⟩ := w.exists_first
  obtain ⟨u, hu⟩ : ∃ u, w.tokens.getLast? = some u :=
    Option.isSome_iff_exists.mp (by simp [htokens])
  have hmem : u ∈ w.tokens := List.mem_of_getLast? hu
  have hlast : w.lastLine = u.stop.line := by rw [lastLine, hu]; rfl
  obtain ⟨before, text, after, hsource, htstart, htstop, -⟩ :=
    (laid_scan source).token_covers (h.subset (by simp [htokens] : t ∈ w.tokens))
  obtain ⟨before', text', after', hsource', hustart, hustop, -⟩ :=
    (laid_scan source).token_covers (h.subset hmem)
  have hoffset : t.start.offset ≤ u.stop.offset := by
    have hpairwise := (laid_scan source).tokens_pairwise.sublist h
    rw [htokens] at hpairwise hmem
    have htext : t.start.offset ≤ t.stop.offset := by simp [htstop]
    have htext' : u.start.offset ≤ u.stop.offset := by simp [hustop]
    rcases List.mem_cons.mp hmem with rfl | hmem
    · exact htext
    · have hapart := (List.pairwise_cons.mp hpairwise).1 u hmem
      omega
  rw [hustop, hustart, ← Position.after_append] at hoffset
  rw [hstart, hlast, htstart, hustop, hustart, ← Position.after_append]
  rw [htstart, Position.offset_after, Position.offset_after] at hoffset
  rw [← List.append_assoc] at hsource'
  exact Position.line_le_of_length hsource hsource' (by omega)

lemma extractImports_sublist {source : String} {tree : Tree} (h : parse source.toList = .ok tree)
    {all : List Import} (hall : extractImports false source = .ok all) :
    ∃ kept, extractImports true source = .ok kept ∧ kept.Sublist all := by
  rw [extractImports_eq_walk, h] at hall
  cases hall
  rw [extractImports_eq_walk, h]
  exact ⟨_, rfl, (importsOf_sublist tree.root).flatMap _⟩

/-- An import statement is suppressed if a directive covers one of its lines. What is recorded first
for the least line that is covered counts, which for comments is the one behind code. -/
theorem suppression_nearest :
    (∀ (calls : List SuppressedLines.Call) (first last : Nat), first ≤ last →
      ((SuppressedLines.recordAll calls).find? first last = none ↔
        ∀ c ∈ calls, ¬ (first ≤ c.covers ∧ c.covers ≤ last)) ∧
      ∀ d, (SuppressedLines.recordAll calls).find? first last = some d ↔
        ∃ front c back, calls = front ++ c :: back ∧ c.directive = d ∧
          (first ≤ c.covers ∧ c.covers ≤ last) ∧
          (∀ other ∈ calls, first ≤ other.covers → other.covers ≤ last →
            c.covers ≤ other.covers) ∧
          ∀ other ∈ front, other.covers ≠ c.covers) ∧
    ∀ (source : String) (tree : Tree), parse source.toList = .ok tree →
      tree.comments = comments (scan source.toList) ∧
      (∀ c ∈ tree.comments, ∃ before after, source.toList = before ++ (c.text ++ after) ∧
        c.start = Position.start.after before ∧ c.text.head? = some '#' ∧ '\n' ∉ c.text) ∧
      ∃ (written : List WrittenImport) (directive : WrittenImport → Option Directive)
        (all kept : List Import),
        written.map (·.tokens) = (lines (scan source.toList)).flatMap (importSegments ·.tokens) ∧
        extractImports false source = .ok all ∧
        (all = written.flatMap fun w => w.imports (directive w)) ∧
        extractImports true source = .ok kept ∧ kept.Sublist all ∧
        ∀ w ∈ written, w.StandsIn source.toList ∧ w.start.line ≤ w.lastLine ∧
          ((directive w).isSome = true ↔
            ∃ c ∈ tree.comments, (Directive.ofComment? c.text).isSome = true ∧
              w.start.line ≤ c.covers source.toList ∧ c.covers source.toList ≤ w.lastLine) ∧
          ∀ d, directive w = some d ↔
            ∃ c, Comment.Governs source.toList tree.comments w.start.line w.lastLine c d := by
  refine ⟨fun calls first last _ => SuppressedLines.find?_recordAll calls first last,
    fun source tree h => ?_⟩
  have hcomments := comments_of_parse h
  have hlaid := laid_scan source.toList
  have hlines := hlaid.comments_pairwise
  rw [← hcomments] at hlines
  refine ⟨hcomments, fun c hc => hlaid.comment_covers (hcomments ▸ hc), ?_⟩
  obtain ⟨written, htokens, hsublist, hfound⟩ := exists_written h
  have hall := extractImports_of_written h hfound
  obtain ⟨kept, hkept, hsub⟩ := extractImports_sublist h hall
  refine ⟨written, _, _, kept, htokens, hall, rfl, hkept, hsub, fun w hw => ?_⟩
  have hw : w.tokens.Sublist (tokens (scan source.toList)) :=
    (List.sublist_flatten_of_mem (List.mem_map_of_mem hw)).trans hsublist
  refine ⟨w.standsIn fun t ht => hw.subset ht, w.line_le_lastLine hw,
    isSome_find?_suppressedLines hlines, fun d => ?_⟩
  exact ⟨exists_governs hlines, fun ⟨c, hc⟩ => hc.find? hlines⟩

namespace Sample

/-- A directive above a statement, and another one behind it. -/
def coveredSource : String :=
  "# tagbound: ignore reason=\"above\"\nimport a # tagbound: ignore\n"

def coveredImports : List Import :=
  [⟨2, 1, 0, "a", .wildcard, true, none⟩]

/-- A directive behind code on line 3, then one alone on line 2, then one further down. -/
def calls : List SuppressedLines.Call :=
  [⟨3, false, ⟨some "behind"⟩⟩, ⟨2, true, ⟨some "above"⟩⟩, ⟨4, false, ⟨none⟩⟩]

end Sample

theorem suppression_nearest_sample :
    (SuppressedLines.recordAll Sample.calls).find? 2 5 = some ⟨some "behind"⟩ ∧
    ∃ (tree : Tree) (written : List WrittenImport) (directive : WrittenImport → Option Directive),
      parse Sample.coveredSource.toList = .ok tree ∧
      (Sample.coveredImports = written.flatMap fun w => w.imports (directive w)) ∧
      ∀ w ∈ written, ∀ d, directive w = some d ↔ ∃ c, Comment.Governs
        Sample.coveredSource.toList tree.comments w.start.line w.lastLine c d := by
  have hall : extractImports false Sample.coveredSource = .ok Sample.coveredImports := by
    rw [extractImports_eq_walk]
    decide +kernel
  have hfind : (SuppressedLines.recordAll Sample.calls).find? 2 5 = some ⟨some "behind"⟩ :=
    ((suppression_nearest.1 Sample.calls 2 5 (by decide)).2 _).mpr
      ⟨[], _, _, rfl, rfl, by decide, by decide, by decide⟩
  obtain ⟨tree, hparse, -⟩ := Traversal.bind_eq_ok_iff.mp hall
  obtain ⟨-, -, written, directive, imports, -, -, himports, heq, -, -, hwritten⟩ :=
    suppression_nearest.2 Sample.coveredSource tree hparse
  refine ⟨hfind, tree, written, directive, hparse, ?_, fun w hw => (hwritten w hw).2.2.2⟩
  rw [← heq]
  exact Except.ok.inj (hall.symm.trans himports)

end Source

end ImportFence
