import ImportFence.Proofs.Headers
import ImportFence.Proofs.Outline

/-!
# Reading blocks

Reading a statement takes the line it starts on and lines behind it that are indented as far. What is
found are the import statements and the comments written in the lines that were taken, in their order,
and the rest of the lines is where the outline goes on behind headers and their blocks. This holds of
the statements of a block if it holds of the blocks in them.
-/

namespace ImportFence.Source

open Statement

lemma importsOfAll_append (ignoreTypeChecking : Bool) (a b : List Statement) :
    importsOfAll ignoreTypeChecking (a ++ b) =
      importsOfAll ignoreTypeChecking a ++ importsOfAll ignoreTypeChecking b := by
  simp [importsOfAll, pickedFrom_eq_flatMap]

lemma commentsOfAll_append (a b : List Statement) :
    commentsOfAll (a ++ b) = commentsOfAll a ++ commentsOfAll b := by
  simp [commentsOfAll, pickedFrom_eq_flatMap]

namespace Block

lemma importsOfAll_remarks (ignoreTypeChecking : Bool) (line : Line) :
    importsOfAll ignoreTypeChecking (remarks line) = [] := by
  simp [importsOfAll, pickedFrom_eq_flatMap, remarks, picked, importing?]

lemma commentsOfAll_remarks (line : Line) : commentsOfAll (remarks line) = line.comments := by
  simp [commentsOfAll, pickedFrom_eq_flatMap, remarks, List.flatMap_map, picked, comment?]

lemma interface?_of_mem_remarks {line : Line} {s : Statement} (h : s ∈ remarks line) :
    s.interface? = none := by
  obtain ⟨c, -, rfl⟩ := List.mem_map.mp h
  rfl

/-! ### What lines hold -/

/-- The statements are those that a first line and lines behind it hold, as far as imports go, and the
comments of the latter. -/
structure Holds (first : List Token) (used : List Line) (ss : List Statement) : Prop where
  imports : Imports (importSegments first ++ used.flatMap (importSegments ·.tokens))
    (importsOfAll false ss)
  comments : commentsOfAll ss = used.flatMap (·.comments)

/-- Reading behind a first line took lines that are indented as far as the block around, and found
what they hold. -/
def Reads (around : Nat) (first : List Token) (lines : List Line)
    (r : List Statement × List Line) : Prop :=
  ∃ used, lines = used ++ r.2 ∧ (∀ line ∈ used, around ≤ line.indent) ∧ Holds first used r.1

/-- The first of the lines, if there is one, is indented less. -/
def Stops (indent : Nat) (lines : List Line) : Prop :=
  ∀ line ∈ lines.head?, line.indent < indent

/-- A reader of blocks takes lines that are indented as far as asked, and stops at one that is not.
It can do so with less than `n` lines. -/
def Reading (n : Nat) (block : BlockReader) : Prop :=
  ∀ indent lines r, lines.length < n → block indent lines = .ok r →
    Reads indent [] lines r ∧ Stops indent r.2

variable {first tokens behind : List Token} {line : Line} {lines mid rest : List Line}
  {ss ss' : List Statement} {r : List Statement × List Line} {block : BlockReader} {around n : Nat}

lemma importSegments_nil : importSegments [] = [] := rfl

lemma Holds.append {used used' : List Line} (h : Holds first used ss) (h' : Holds [] used' ss') :
    Holds first (used ++ used') (ss ++ ss') where
  imports := by
    have himports := h'.imports
    rw [importSegments_nil, List.nil_append] at himports
    rw [List.flatMap_append, ← List.append_assoc, importsOfAll_append]
    exact h.imports.append himports
  comments := by rw [commentsOfAll_append, List.flatMap_append, h.comments, h'.comments]

lemma Holds.cons {used : List Line} (h : Holds line.tokens used ss) :
    Holds [] (line :: used) (remarks line ++ ss) where
  imports := by
    rw [importsOfAll_append, importsOfAll_remarks, importSegments_nil, List.flatMap_cons]
    exact h.imports
  comments := by
    rw [commentsOfAll_append, commentsOfAll_remarks, h.comments, List.flatMap_cons]

lemma Holds.of_importSegments {first' : List Token} {used : List Line} (h : Holds first used ss)
    (hfirst : importSegments first' = importSegments first) : Holds first' used ss :=
  ⟨by rw [hfirst]; exact h.imports, h.comments⟩

lemma Holds.within {used : List Line} {s : Statement} (h : Holds first used ss)
    (himports : importsOf false s = importsOfAll false ss) (hcomments : commentsOf s = commentsOfAll ss) :
    Holds first used [s] where
  imports := by
    have hone : importsOfAll false [s] = importsOfAll false ss :=
      (List.append_nil _).trans himports
    rw [hone]
    exact h.imports
  comments := ((List.append_nil _).trans hcomments).trans h.comments

lemma Reads.imp {first' : List Token} (h : Reads around first lines (ss, rest))
    (himp : ∀ used, Holds first used ss → Holds first' used ss') :
    Reads around first' lines (ss', rest) := by
  obtain ⟨used, hlines, hused, hholds⟩ := h
  exact ⟨used, hlines, hused, himp used hholds⟩

lemma reads_nothing : Reads around [] lines ([], lines) :=
  ⟨[], rfl, by simp, .nil, rfl⟩

lemma reads_simples (h : simples tokens = .ok (ss, behind)) : Reads around tokens lines (ss, lines) :=
  ⟨[], rfl, by simp, by simpa using imports_of_simples h, comments_of_simples h⟩

lemma Reads.mono {indent : Nat} (h : Reads indent first lines r) (hindent : around ≤ indent) :
    Reads around first lines r := by
  obtain ⟨used, hlines, hused, hholds⟩ := h
  exact ⟨used, hlines, fun line hline => hindent.trans (hused line hline), hholds⟩

lemma Reads.cons (hline : around ≤ line.indent) (h : Reads around line.tokens lines (ss, rest)) :
    Reads around [] (line :: lines) (remarks line ++ ss, rest) := by
  obtain ⟨used, hlines, hused, hholds⟩ := h
  exact ⟨line :: used, by rw [hlines, List.cons_append], List.forall_mem_cons.mpr ⟨hline, hused⟩,
    hholds.cons⟩

lemma Reads.append (h : Reads around first lines (ss, mid)) (h' : Reads around [] mid (ss', rest)) :
    Reads around first lines (ss ++ ss', rest) := by
  obtain ⟨used, hlines, hused, hholds⟩ := h
  obtain ⟨used', hmid, hused', hholds'⟩ := h'
  refine ⟨used ++ used', ?_, ?_, hholds.append hholds'⟩
  · rw [hlines, List.append_assoc, ← hmid]
  · exact fun line hline => (List.mem_append.mp hline).elim (hused line) (hused' line)

lemma Reads.length_le (h : Reads around first lines r) : r.2.length ≤ lines.length := by
  obtain ⟨used, hlines, -, -⟩ := h
  rw [hlines, List.length_append]
  exact Nat.le_add_left _ _

/-- What was read of a block are the lines that are indented as far as its first one. -/
lemma Reads.drop_blockLength {next : Line} (hcolon : endsInColon line = true)
    (hnext : around < next.indent) (h : Reads next.indent first (next :: lines) r)
    (hstops : Stops next.indent r.2) :
    (next :: lines).drop (blockLength around line (next :: lines)) = r.2 := by
  obtain ⟨used, hlines, hused, -⟩ := h
  have hrest : r.2.takeWhile (next.indent ≤ ·.indent) = [] := by
    cases hr : r.2 with
    | nil => rfl
    | cons l rest =>
      have hless : l.indent < next.indent := hstops l (by rw [hr]; rfl)
      exact List.takeWhile_cons_of_neg (by simpa using hless)
  rw [blockLength, if_pos (by simp [hcolon, hnext]), hlines,
    List.takeWhile_append_of_pos (by simpa using hused), hrest, List.append_nil, List.drop_left]

lemma onLine_eq_ok {α : Type} {p : Reader α} {x : α × List Token} (h : onLine p tokens = .ok x) :
    p tokens = .ok x := by
  unfold onLine at h
  split at h
  · next hread =>
    cases h
    exact hread
  · cases h

lemma isPrefix_of_firstKind? {k : Kind} (h : firstKind? tokens = some k) : [k] <+: kindsOf tokens := by
  cases tokens with
  | nil => cases h
  | cons t tokens =>
    cases h
    exact List.cons_prefix_cons.mpr ⟨rfl, List.nil_prefix⟩

lemma firstKind?_append {taken : List Token} {k : Kind} (h : (kindsOf taken).head? = some k)
    (behind : List Token) : firstKind? (taken ++ behind) = some k := by
  cases taken with
  | nil => cases h
  | cons t taken => exact h

/-! ### Lines with and without a header -/

lemma endsInColon_eq_false (h : (kindsOf line.tokens).getLast? ≠ some (.mark ":")) :
    endsInColon line = false := by
  rw [kindsOf, List.getLast?_map] at h
  rw [endsInColon]
  cases hlast : line.tokens.getLast? with
  | none => rfl
  | some t =>
    rw [hlast] at h
    simpa using h

lemma endsInColon_of_heads (h : Heads (kindsOf line.tokens)) : endsInColon line = true := by
  obtain ⟨v, hkinds, -⟩ := h
  have hlast : (kindsOf line.tokens).getLast? = some (.mark ":") := by rw [hkinds]; simp
  rw [kindsOf, List.getLast?_map] at hlast
  obtain ⟨t, ht, hkind⟩ := Option.map_eq_some_iff.mp hlast
  simp [endsInColon, ht, hkind]

lemma blockLength_of_not_endsInColon (h : endsInColon line = false) (lines : List Line) :
    blockLength around line lines = 0 := by
  cases lines with
  | nil => rfl
  | cons next lines => exact if_neg (by simp [h])

lemma isHeader_of_word {k : Kind} (hk : k ∈ headerWords) (h : firstKind? line.tokens = some k) :
    isHeader line = true := by
  simp [isHeader, h, hk]

lemma simpleLine_eq_ok (h : simpleLine tokens lines = .ok r) :
    ∃ behind, simples tokens = .ok (r.1, behind) ∧ r.2 = lines := by
  obtain ⟨⟨ss, behind⟩, hread, h₁⟩ := Traversal.bind_eq_ok_iff.mp h
  cases h₁
  exact ⟨behind, onLine_eq_ok hread, rfl⟩

lemma endsInColon_of_simples (h : simples line.tokens = .ok (ss, behind)) :
    endsInColon line = false :=
  endsInColon_eq_false (simples_shows h).2

lemma firstKind?_of_simples (h : simples line.tokens = .ok (ss, behind)) :
    ∀ word ∈ clauseWords, firstKind? line.tokens ≠ some (.keyword word) := by
  intro word hword hfirst
  have hrefuses : Reader.Refuses (.keyword word) simples := by
    clear hfirst
    refine refuses_simples ?_ ?_ ?_ <;>
    · revert word
      decide
  obtain ⟨-, -, hnone⟩ := hrefuses _ _ _ (isPrefix_of_firstKind? hfirst) h
  exact hnone

lemma isHeader_of_simples (h : simples line.tokens = .ok (ss, behind))
    (hwords : ∀ k ∈ blockWords, firstKind? line.tokens ≠ some k) : isHeader line = false := by
  have hclauses := firstKind?_of_simples h
  rw [isHeader, endsInColon_of_simples h]
  cases hfirst : firstKind? line.tokens with
  | none => rfl
  | some k =>
    rw [hfirst] at hwords hclauses
    have hk : k ∉ headerWords := by
      rw [headerWords, List.mem_append, List.mem_map]
      rintro (hk | ⟨word, hword, rfl⟩)
      · exact hwords k hk rfl
      · exact hclauses word hword rfl
    simpa using hk

/-! ### Blocks behind a header -/

lemma suite_reads (hblock : Reading n block) (hn : lines.length < n)
    (h : suite block around tokens lines = .ok r) : Reads around tokens lines r := by
  unfold suite at h
  split at h
  · next hempty =>
    obtain rfl := List.isEmpty_iff.mp hempty
    split at h
    · split at h
      · next hindent => exact (hblock _ _ _ hn h).1.mono hindent.le
      · cases h
        exact reads_nothing
    · cases h
      exact reads_nothing
  · obtain ⟨⟨ss, behind⟩, hread, hok⟩ := Traversal.bind_eq_ok_iff.mp h
    cases hok
    exact reads_simples (onLine_eq_ok hread)

/-- Where a block ends is told by the colon at the end of its header and by the indentation. -/
lemma suite_rest (hblock : Reading n block) (hn : lines.length < n) {header : List Token}
    (htokens : line.tokens = header ++ behind) (hheader : Heads (kindsOf header))
    (h : suite block around behind lines = .ok r) :
    lines.drop (blockLength around line lines) = r.2 := by
  unfold suite at h
  split at h
  · next hempty =>
    obtain rfl := List.isEmpty_iff.mp hempty
    rw [List.append_nil] at htokens
    have hcolon : endsInColon line = true := endsInColon_of_heads (htokens ▸ hheader)
    split at h
    · next next lines =>
      split at h
      · next hindent =>
        obtain ⟨hreads, hstops⟩ := hblock _ _ _ hn h
        exact hreads.drop_blockLength hcolon hindent hstops
      · next hindent =>
        cases h
        rw [blockLength, if_neg (by simp [hindent]), List.drop_zero]
    · cases h
      rfl
  · next hempty =>
    obtain ⟨⟨ss, left⟩, hread, hok⟩ := Traversal.bind_eq_ok_iff.mp h
    cases hok
    have hlast : (kindsOf line.tokens).getLast? ≠ some (.mark ":") := by
      have hne : kindsOf behind ≠ [] := by simpa [kindsOf] using hempty
      rw [htokens, kindsOf, List.map_append, ← kindsOf, ← kindsOf,
        List.getLast?_append_of_ne_nil _ hne]
      exact (simples_shows (onLine_eq_ok hread)).2
    rw [blockLength_of_not_endsInColon (endsInColon_eq_false hlast), List.drop_zero]

/-- Reading behind a header found what it took, and left off where the outline goes on. -/
structure Passes (around : Nat) (line : Line) (lines : List Line)
    (r : List Statement × List Line) : Prop where
  reads : Reads around line.tokens lines r
  skips : Skips around (line :: lines) r.2

/-- Reading further clauses of a statement did so. -/
structure Continues (around : Nat) (lines : List Line) (r : List Statement × List Line) : Prop where
  reads : Reads around [] lines r
  skips : Skips around lines r.2

lemma continues_nothing : Continues around lines ([], lines) :=
  ⟨reads_nothing, .refl⟩

lemma Continues.append (h : Continues around lines (ss, mid))
    (h' : Continues around mid (ss', rest)) : Continues around lines (ss ++ ss', rest) :=
  ⟨h.reads.append h'.reads, h.skips.trans h'.skips⟩

lemma Passes.append (h : Passes around line lines (ss, mid))
    (h' : Continues around mid (ss', rest)) : Passes around line lines (ss ++ ss', rest) :=
  ⟨h.reads.append h'.reads, h.skips.trans h'.skips⟩

lemma Passes.continues (hline : around ≤ line.indent) (h : Passes around line lines (ss, rest)) :
    Continues around (line :: lines) (remarks line ++ ss, rest) :=
  ⟨h.reads.cons hline, h.skips⟩

lemma Passes.within {s : Statement} (h : Passes around line lines (ss, rest))
    (himports : importsOf false s = importsOfAll false ss) (hcomments : commentsOf s = commentsOfAll ss) :
    Passes around line lines ([s], rest) :=
  ⟨h.reads.imp fun _ hholds => hholds.within himports hcomments, h.skips⟩

lemma suite_passes {α : Type} {header : Reader α} {a : α} {ahead : List Kind}
    (hheader : Header ahead header) (hahead : ahead <+: kindsOf line.tokens)
    (hline : isHeader line = true) (hblock : Reading n block) (hn : lines.length < n)
    (hread : onLine header line.tokens = .ok (a, behind))
    (h : suite block around behind lines = .ok r) : Passes around line lines r := by
  obtain ⟨taken, htokens, hheads⟩ := hheader line.tokens a behind hahead (onLine_eq_ok hread)
  obtain ⟨ss, rest⟩ := r
  refine ⟨(suite_reads hblock hn h).imp fun _ hholds => hholds.of_importSegments ?_, ?_⟩
  · rw [htokens, importSegments_header hheads]
  · exact suite_rest hblock hn htokens hheads h ▸ Skips.header hline around lines

/-! ### Clauses -/

lemma clause?_eq_some {word : String} (h : clause? around word lines = some (line, rest)) :
    lines = line :: rest ∧ around ≤ line.indent ∧ firstKind? line.tokens = some (.keyword word) := by
  unfold clause? at h
  split at h
  · split at h
    · next hclause =>
      cases h
      simp only [Bool.and_eq_true, decide_eq_true_eq, beq_iff_eq] at hclause
      exact ⟨rfl, hclause⟩
    · cases h
  · cases h

lemma clause_continues {α : Type} {header : Reader α} {word : String} {a : α}
    (hword : .keyword word ∈ headerWords) (hheader : Header [.keyword word] header)
    (hblock : Reading n block) (hn : lines.length < n)
    (hclause : clause? around word lines = some (line, mid))
    (hread : onLine header line.tokens = .ok (a, behind))
    (hsuite : suite block around behind mid = .ok (ss, rest)) :
    Continues around lines (remarks line ++ ss, rest) := by
  obtain ⟨rfl, hindent, hfirst⟩ := clause?_eq_some hclause
  exact (suite_passes hheader (isPrefix_of_firstKind? hfirst) (isHeader_of_word hword hfirst) hblock
    (Nat.lt_of_succ_lt hn) hread hsuite).continues hindent

lemma optionalClause_continues {word : String} (hword : .keyword word ∈ headerWords)
    (hstays : (Kind.keyword word).stays = true) (hblock : Reading n block) (hn : lines.length < n)
    (h : optionalClause block around word lines = .ok r) : Continues around lines r := by
  unfold optionalClause at h
  split at h
  · next hclause =>
    obtain ⟨⟨a, behind⟩, hread, h₁⟩ := Traversal.bind_eq_ok_iff.mp h
    obtain ⟨⟨body, rest⟩, hsuite, h₂⟩ := Traversal.bind_eq_ok_iff.mp h₁
    cases h₂
    exact clause_continues hword (header_bare hstays) hblock hn hclause hread hsuite
  · cases h
    exact continues_nothing

lemma alternatives_continues (hblock : Reading n block) (hn : lines.length < n)
    (source : List Char) {m : Nat} (h : alternatives block source around m lines = .ok r) :
    Continues around lines r := by
  induction m generalizing lines r with
  | zero =>
    cases h
    exact continues_nothing
  | succ m ih =>
    unfold alternatives at h
    split at h
    · next hclause =>
      obtain ⟨⟨condition, behind⟩, hread, h₁⟩ := Traversal.bind_eq_ok_iff.mp h
      obtain ⟨⟨body, mid⟩, hsuite, h₂⟩ := Traversal.bind_eq_ok_iff.mp h₁
      obtain ⟨⟨further, rest⟩, hfurther, h₃⟩ := Traversal.bind_eq_ok_iff.mp h₂
      cases h₃
      have hbody := clause_continues (by decide) (header_condition source rfl) hblock hn hclause
        hread hsuite
      exact hbody.append (ih (hbody.reads.length_le.trans_lt hn) hfurther)
    · exact optionalClause_continues (by decide) rfl hblock hn h

lemma handlers_continues (hblock : Reading n block) (hn : lines.length < n) {m count : Nat}
    (h : handlers block around m lines = .ok (count, ss, rest)) :
    Continues around lines (ss, rest) := by
  induction m generalizing lines count ss rest with
  | zero =>
    cases h
    exact continues_nothing
  | succ m ih =>
    unfold handlers at h
    split at h
    · next hclause =>
      obtain ⟨⟨a, behind⟩, hread, h₁⟩ := Traversal.bind_eq_ok_iff.mp h
      obtain ⟨⟨body, mid⟩, hsuite, h₂⟩ := Traversal.bind_eq_ok_iff.mp h₁
      obtain ⟨⟨count, further, rest⟩, hfurther, h₃⟩ := Traversal.bind_eq_ok_iff.mp h₂
      cases h₃
      have hbody := clause_continues (by decide) header_except hblock hn hclause hread hsuite
      exact hbody.append (ih (hbody.reads.length_le.trans_lt hn) hfurther)
    · cases h
      exact continues_nothing

lemma cases_reads (hblock : Reading n block) (hn : lines.length < n) {indent m : Nat}
    (hm : lines.length ≤ m) (h : cases block indent m lines = .ok r) :
    Reads indent [] lines r ∧ Stops indent r.2 := by
  induction m generalizing lines r with
  | zero =>
    cases h
    obtain rfl := List.length_eq_zero_iff.mp (Nat.le_zero.mp hm)
    exact ⟨reads_nothing, nofun⟩
  | succ m ih =>
    cases lines with
    | nil =>
      cases h
      exact ⟨reads_nothing, nofun⟩
    | cons line lines =>
      unfold cases at h
      split at h
      · next hindent =>
        cases h
        exact ⟨reads_nothing, by simpa [Stops] using hindent⟩
      · next hindent =>
        obtain ⟨⟨a, behind⟩, hread, h₁⟩ := Traversal.bind_eq_ok_iff.mp h
        obtain ⟨⟨body, mid⟩, hsuite, h₂⟩ := Traversal.bind_eq_ok_iff.mp h₁
        obtain ⟨⟨further, rest⟩, hfurther, h₃⟩ := Traversal.bind_eq_ok_iff.mp h₂
        cases h₃
        have hlength : lines.length < n := Nat.lt_of_succ_lt hn
        obtain ⟨taken, htokens, hheads⟩ :=
          header_case line.tokens a behind List.nil_prefix (onLine_eq_ok hread)
        have hbody : Reads indent line.tokens lines (body, mid) :=
          (suite_reads hblock hlength hsuite).imp fun _ hholds =>
            hholds.of_importSegments (by rw [htokens, importSegments_header hheads])
        have hmid : mid.length ≤ lines.length := hbody.length_le
        obtain ⟨hreads, hstops⟩ := ih (hmid.trans_lt hlength)
          (hmid.trans (Nat.le_of_succ_le_succ hm)) hfurther
        exact ⟨(hbody.cons (Nat.le_of_not_lt hindent)).append hreads, hstops⟩

/-! ### Statements with blocks -/

/-- Reading a header and what belongs to it gave no statement of the interface. -/
structure Builds (around : Nat) (line : Line) (lines : List Line)
    (r : List Statement × List Line) : Prop extends Passes around line lines r where
  interface? : ∀ s ∈ r.1, s.interface? = none

lemma Passes.compound (h : Passes around line lines (ss, rest)) :
    Builds around line lines ([.compound ss], rest) :=
  ⟨h.within rfl rfl, by simp [Statement.interface?]⟩

lemma definition_builds {header : Reader Unit} {ahead : List Kind} (hheader : Header ahead header)
    (hahead : ahead <+: kindsOf line.tokens) (hline : isHeader line = true)
    (hblock : Reading n block) (hn : lines.length < n)
    (h : definition block around header line.tokens lines = .ok r) : Builds around line lines r := by
  obtain ⟨⟨a, behind⟩, hread, h₁⟩ := Traversal.bind_eq_ok_iff.mp h
  obtain ⟨⟨body, rest⟩, hsuite, h₂⟩ := Traversal.bind_eq_ok_iff.mp h₁
  cases h₂
  exact (suite_passes hheader hahead hline hblock hn hread hsuite).compound

lemma loop_builds {header : Reader Unit} {ahead : List Kind} (hheader : Header ahead header)
    (hahead : ahead <+: kindsOf line.tokens) (hline : isHeader line = true)
    (hblock : Reading n block) (hn : lines.length < n)
    (h : loop block around header line.tokens lines = .ok r) : Builds around line lines r := by
  obtain ⟨⟨a, behind⟩, hread, h₁⟩ := Traversal.bind_eq_ok_iff.mp h
  obtain ⟨⟨body, mid⟩, hsuite, h₂⟩ := Traversal.bind_eq_ok_iff.mp h₁
  obtain ⟨⟨otherwise, rest⟩, hclause, h₃⟩ := Traversal.bind_eq_ok_iff.mp h₂
  cases h₃
  have hbody := suite_passes hheader hahead hline hblock hn hread hsuite
  exact (hbody.append (optionalClause_continues (by decide) rfl hblock
    (hbody.reads.length_le.trans_lt hn) hclause)).compound

lemma choice_builds (hfirst : firstKind? line.tokens = some (.keyword "if"))
    (hblock : Reading n block) (hn : lines.length < n) (source : List Char)
    (h : choice block source around line.tokens lines = .ok r) : Builds around line lines r := by
  obtain ⟨⟨condition, behind⟩, hread, h₁⟩ := Traversal.bind_eq_ok_iff.mp h
  obtain ⟨⟨body, mid⟩, hsuite, h₂⟩ := Traversal.bind_eq_ok_iff.mp h₁
  obtain ⟨⟨further, rest⟩, hfurther, h₃⟩ := Traversal.bind_eq_ok_iff.mp h₂
  cases h₃
  have hbody := suite_passes (header_condition source rfl) (isPrefix_of_firstKind? hfirst)
    (isHeader_of_word (by decide) hfirst) hblock hn hread hsuite
  have hall := hbody.append
    (alternatives_continues hblock (hbody.reads.length_le.trans_lt hn) source hfurther)
  exact ⟨hall.within (importsOfAll_append false body further).symm
    (commentsOfAll_append body further).symm, by simp [Statement.interface?]⟩

lemma final_builds (hblock : Reading n block) (hn : lines.length < n) {start : Position}
    {fails : Bool} (hbody : Passes around line lines (ss, mid))
    (h : (do
      if fails then throw start
      let (final, lines) ← optionalClause block around "finally" mid
      return ([.compound (ss ++ final)], lines) : Outcome) = .ok r) :
    Builds around line lines r := by
  cases fails with
  | true => cases h
  | false =>
    obtain ⟨⟨final, left⟩, hclause, h₁⟩ := Traversal.bind_eq_ok_iff.mp h
    cases h₁
    exact (hbody.append (optionalClause_continues (by decide) rfl hblock
      (hbody.reads.length_le.trans_lt hn) hclause)).compound

lemma attempt_builds (hfirst : firstKind? line.tokens = some (.keyword "try"))
    (hblock : Reading n block) (hn : lines.length < n)
    (h : attempt block around line.tokens lines = .ok r) : Builds around line lines r := by
  obtain ⟨⟨a, behind⟩, hread, h₁⟩ := Traversal.bind_eq_ok_iff.mp h
  obtain ⟨⟨body, mid⟩, hsuite, h₂⟩ := Traversal.bind_eq_ok_iff.mp h₁
  obtain ⟨⟨count, handled, left⟩, hhandled, h₃⟩ := Traversal.bind_eq_ok_iff.mp h₂
  have hbody := suite_passes (header_bare rfl) (isPrefix_of_firstKind? hfirst)
    (isHeader_of_word (by decide) hfirst) hblock hn hread hsuite
  have hall := hbody.append
    (handlers_continues hblock (hbody.reads.length_le.trans_lt hn) hhandled)
  dsimp only at h₃
  split at h₃
  · -- without an exception clause no `else` is read
    exact final_builds hblock hn (hall.append continues_nothing) h₃
  · obtain ⟨⟨otherwise, left'⟩, hclause, h₄⟩ := Traversal.bind_eq_ok_iff.mp h₃
    exact final_builds hblock hn (hall.append (optionalClause_continues (by decide) rfl hblock
      (hall.reads.length_le.trans_lt hn) hclause)) h₄

lemma decorator_passes {a : Unit} (hfirst : firstKind? line.tokens = some (.mark "@"))
    (hread : onLine decorator line.tokens = .ok (a, behind)) (h : Continues around lines r) :
    Passes around line lines r := by
  obtain ⟨ss, rest⟩ := r
  obtain ⟨taken, htokens, hsettled⟩ :=
    within_decorator line.tokens a behind List.nil_prefix (onLine_eq_ok hread)
  rw [endsLine_decorator _ _ _ (onLine_eq_ok hread), List.append_nil] at htokens
  rw [← htokens] at hsettled
  have hskips := Skips.header (isHeader_of_word (by decide) hfirst) around lines
  rw [blockLength_of_not_endsInColon (endsInColon_eq_false hsettled.last)] at hskips
  refine ⟨h.reads.imp fun _ hholds => hholds.of_importSegments ?_, hskips.trans h.skips⟩
  exact importSegments_free hsettled.free

/-- A decorator is a header without a block; what it stands before is read on the next line. -/
lemma decorated_builds (hblock : Reading n block) (hn : lines.length < n) {m : Nat}
    (h : decorated block around m line.tokens lines = .ok r) : Builds around line lines r := by
  induction m generalizing line lines r with
  | zero => cases h
  | succ m ih =>
    unfold decorated at h
    split at h
    · next hfirst =>
      obtain ⟨⟨a, behind⟩, hread, h₁⟩ := Traversal.bind_eq_ok_iff.mp h
      cases lines with
      | nil => cases h₁
      | cons next lines =>
        dsimp only at h₁
        split at h₁
        · next hindent =>
          obtain ⟨⟨ss, rest⟩, hnext, h₂⟩ := Traversal.bind_eq_ok_iff.mp h₁
          cases h₂
          have hbuilds := ih (Nat.lt_of_succ_lt hn) hnext
          refine ⟨decorator_passes hfirst hread (hbuilds.toPasses.continues hindent), ?_⟩
          intro s hs
          exact (List.mem_append.mp hs).elim interface?_of_mem_remarks (hbuilds.interface? s)
        · cases h₁
    · obtain ⟨⟨a, behind⟩, hread, h₁⟩ := Traversal.bind_eq_ok_iff.mp h
      obtain ⟨taken, htokens, -, word, hword, hhead⟩ :=
        header_definition line.tokens a behind List.nil_prefix (onLine_eq_ok hread)
      have hfirst : firstKind? line.tokens = some (.keyword word) :=
        htokens ▸ firstKind?_append hhead behind
      have hheader : Header [] definitionHeader := header_definition.mono fun _ _ hw => hw.1
      refine definition_builds hheader List.nil_prefix (isHeader_of_word ?_ hfirst) hblock hn h
      clear hhead hfirst
      revert word
      decide

lemma caseBlock_passes (hblock : Reading n block) (hn : lines.length < n)
    (hheads : Heads (kindsOf line.tokens)) (hline : isHeader line = true)
    (h : caseBlock block around lines = .ok r) : Passes around line lines r := by
  obtain ⟨ss, rest⟩ := r
  have hnone : importSegments line.tokens = importSegments [] := by
    rw [← List.append_nil line.tokens, importSegments_header hheads]
  have hcolon := endsInColon_of_heads hheads
  have hskips := Skips.header hline around lines
  unfold caseBlock at h
  split at h
  · split at h
    · next hindent =>
      obtain ⟨hreads, hstops⟩ := cases_reads hblock hn le_rfl h
      rw [hreads.drop_blockLength hcolon hindent hstops] at hskips
      exact ⟨(hreads.mono hindent.le).imp fun _ hholds => hholds.of_importSegments hnone, hskips⟩
    · next hindent =>
      cases h
      rw [blockLength, if_neg (by simp [hindent])] at hskips
      exact ⟨reads_nothing.imp fun _ hholds => hholds.of_importSegments hnone, hskips⟩
  · cases h
    exact ⟨reads_nothing.imp fun _ hholds => hholds.of_importSegments hnone, hskips⟩

/-- A line that starts with the word `match` is a simple statement unless it ends in a colon. -/
lemma matchLine_cases (hfirst : firstKind? line.tokens = some (.name "match"))
    (hblock : Reading n block) (hn : lines.length < n)
    (h : matchLine block around line.tokens lines = .ok r) :
    simpleLine line.tokens lines = .ok r ∨ isHeader line = true ∧ Builds around line lines r := by
  unfold matchLine at h
  split at h
  · next hsimple => exact Or.inl (hsimple.trans h)
  · next x _ hread _ =>
    obtain ⟨⟨body, rest⟩, hcases, h₁⟩ := Traversal.bind_eq_ok_iff.mp h
    cases h₁
    obtain ⟨a, behind⟩ := x
    obtain ⟨taken, htokens, hheads⟩ :=
      header_match line.tokens a behind List.nil_prefix (onLine_eq_ok hread)
    rw [endsLine_match _ _ _ (onLine_eq_ok hread), List.append_nil] at htokens
    rw [← htokens] at hheads
    have hheader : isHeader line = true := by
      simp [isHeader, hfirst, endsInColon_of_heads hheads]
    exact Or.inr ⟨hheader, (caseBlock_passes hblock hn hheads hheader hcases).compound⟩
  · cases h

/-- A line holds simple statements, or it is the header of a statement with blocks. -/
lemma statement_cases (hblock : Reading n block) (hn : lines.length < n) (source : List Char)
    (h : statement block source around line.tokens lines = .ok r) :
    isHeader line = false ∧ simpleLine line.tokens lines = .ok r ∨
      isHeader line = true ∧ Builds around line lines r := by
  have hsimple : simpleLine line.tokens lines = .ok r →
      (∀ k ∈ blockWords, firstKind? line.tokens ≠ some k) →
      isHeader line = false ∧ simpleLine line.tokens lines = .ok r := by
    intro hsimple hwords
    obtain ⟨behind, hsimples, -⟩ := simpleLine_eq_ok hsimple
    exact ⟨isHeader_of_simples hsimples hwords, hsimple⟩
  have hword : ∀ {k : Kind}, firstKind? line.tokens = some k → k ∈ headerWords →
      (isHeader line = true → Builds around line lines r) →
      isHeader line = false ∧ simpleLine line.tokens lines = .ok r ∨
        isHeader line = true ∧ Builds around line lines r :=
    fun hfirst hk hbuilds =>
      have hline := isHeader_of_word hk hfirst
      Or.inr ⟨hline, hbuilds hline⟩
  have hasync : ∀ {header : Reader Unit}, Header [] header →
      Header [.keyword "async"] (Reader.advance >>= fun _ => header) :=
    fun hheader => header_bind (takes_word rfl) fun _ => hheader
  unfold statement at h
  split at h
  · next hfirst => exact hword hfirst (by decide) fun _ => choice_builds hfirst hblock hn source h
  · next hfirst =>
    exact hword hfirst (by decide) fun hline =>
      loop_builds header_while List.nil_prefix hline hblock hn h
  · next hfirst =>
    exact hword hfirst (by decide) fun hline =>
      loop_builds header_for List.nil_prefix hline hblock hn h
  · next hfirst => exact hword hfirst (by decide) fun _ => attempt_builds hfirst hblock hn h
  · next hfirst =>
    exact hword hfirst (by decide) fun hline =>
      definition_builds header_with List.nil_prefix hline hblock hn h
  · next hfirst =>
    exact hword hfirst (by decide) fun hline =>
      definition_builds header_function.header List.nil_prefix hline hblock hn h
  · next hfirst =>
    exact hword hfirst (by decide) fun hline =>
      definition_builds header_class.header List.nil_prefix hline hblock hn h
  · next hfirst _ =>
    exact hword hfirst (by decide) fun hline =>
      loop_builds (hasync header_for) (isPrefix_of_firstKind? hfirst) hline hblock hn h
  · next hfirst _ =>
    exact hword hfirst (by decide) fun hline =>
      definition_builds (hasync header_with) (isPrefix_of_firstKind? hfirst) hline hblock hn h
  · next hfirst _ _ =>
    exact hword hfirst (by decide) fun hline => definition_builds (hasync header_function.header)
      (isPrefix_of_firstKind? hfirst) hline hblock hn h
  · next hfirst => exact hword hfirst (by decide) fun _ => decorated_builds hblock hn h
  · next hfirst =>
    refine (matchLine_cases hfirst hblock hn h).imp_left fun hsimple' => hsimple hsimple' ?_
    rw [hfirst]
    decide
  · refine Or.inl (hsimple h ?_)
    simp only [blockWords, List.forall_mem_cons]
    simp_all

lemma statement_reads (hblock : Reading n block) (hn : lines.length < n) (source : List Char)
    (h : statement block source around line.tokens lines = .ok r) :
    Reads around line.tokens lines r := by
  rcases statement_cases hblock hn source h with ⟨-, hsimple⟩ | ⟨-, hbuilds⟩
  · obtain ⟨behind, hsimples, hlines⟩ := simpleLine_eq_ok hsimple
    obtain ⟨ss, rest⟩ := r
    cases hlines
    exact reads_simples hsimples
  · exact hbuilds.reads

/-- Reading a block finds what the lines hold that it takes. -/
theorem readWithin_reading (source : List Char) (n : Nat) : Reading n (readWithin source n) := by
  induction n with
  | zero => exact fun _ _ _ hn => absurd hn (Nat.not_lt_zero _)
  | succ n ih =>
    intro indent lines r hn h
    cases lines with
    | nil =>
      cases h
      exact ⟨reads_nothing, nofun⟩
    | cons line lines =>
      unfold readWithin at h
      split at h
      · next hindent =>
        cases h
        exact ⟨reads_nothing, by simpa [Stops] using hindent⟩
      · next hindent =>
        obtain ⟨⟨first, mid⟩, hstatement, h₁⟩ := Traversal.bind_eq_ok_iff.mp h
        obtain ⟨⟨further, rest⟩, hfurther, h₂⟩ := Traversal.bind_eq_ok_iff.mp h₁
        cases h₂
        -- the blocks in the statement and the rest of this one are read with one line less
        have hlength : lines.length < n := Nat.lt_of_succ_lt_succ hn
        have hfirst := statement_reads ih hlength source hstatement
        obtain ⟨hreads, hstops⟩ := ih indent mid _ (hfirst.length_le.trans_lt hlength) hfurther
        exact ⟨(hfirst.cons (Nat.le_of_not_lt hindent)).append hreads, hstops⟩

end Block

end ImportFence.Source
