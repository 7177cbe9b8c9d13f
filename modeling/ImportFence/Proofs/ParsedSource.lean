import ImportFence.Proofs.Blocks
import ImportFence.Proofs.Scanning

/-!
# Sources that parse

All lines of a source are read. Its import statements are those that its lines are written with, its
comments are all that were scanned, and the statements that make up its interface are those on the
lines of simple statements in its outline.
-/

namespace ImportFence.Source

open Statement

/-! ### Tokens and comments of lines -/

lemma flatMap_linesFrom (indent : Nat) (items : List Item) :
    (linesFrom indent items).flatMap (·.tokens) = tokens items ∧
      (linesFrom indent items).flatMap (·.comments) = comments items := by
  induction items generalizing indent with
  | nil => exact ⟨rfl, rfl⟩
  | cons item items ih =>
    cases item with
    | lineBreak n => exact ih n
    | comment c =>
      obtain ⟨htokens, hcomments⟩ := ih indent
      rw [linesFrom]
      cases hlines : linesFrom indent items <;> rw [hlines] at htokens hcomments <;>
        exact ⟨htokens, congrArg (c :: ·) hcomments⟩
    | token t =>
      obtain ⟨htokens, hcomments⟩ := ih indent
      rw [linesFrom]
      cases hlines : linesFrom indent items <;> rw [hlines] at htokens hcomments <;>
        exact ⟨congrArg (t :: ·) htokens, hcomments⟩

lemma headLines_append_lines (items : List Item) : headLines items ++ lines items = linesFrom 0 items :=
  List.takeWhile_append_dropWhile

/-- Only comments stand above the first line. -/
lemma flatMap_lines (items : List Item) : (lines items).flatMap (·.tokens) = tokens items := by
  have hhead : (headLines items).flatMap (·.tokens) = [] := by
    rw [List.flatMap_eq_nil_iff]
    intro line hline
    simpa using List.mem_takeWhile_imp hline
  rw [← (flatMap_linesFrom 0 items).1, ← headLines_append_lines, List.flatMap_append, hhead,
    List.nil_append]

/-! ### Statements of a source -/

lemma parse_eq_ok {source : List Char} {tree : Tree} (h : parse source = .ok tree) :
    ∃ statements, Block.readWithin source ((lines (scan source)).length + 1) 0
        (lines (scan source)) = .ok (statements, []) ∧
      tree.statements = (headLines (scan source)).flatMap Block.remarks ++ statements := by
  unfold parse at h
  dsimp only at h
  split at h
  · next statements rest hread =>
    cases h
    obtain ⟨-, hstops⟩ := Block.readWithin_reading source _ _ _ _ (Nat.lt_succ_self _) hread
    cases rest with
    | nil => exact ⟨statements, hread, rfl⟩
    | cons line rest => exact absurd (hstops line rfl) (Nat.not_lt_zero _)
  · cases h

lemma holds_of_readWithin {source : List Char} {lines : List Line} {ss : List Statement}
    (h : Block.readWithin source (lines.length + 1) 0 lines = .ok (ss, [])) :
    Block.Holds [] lines ss := by
  obtain ⟨⟨used, hlines, -, hholds⟩, -⟩ :=
    Block.readWithin_reading source _ _ _ _ (Nat.lt_succ_self _) h
  rw [List.append_nil] at hlines
  exact hlines ▸ hholds

/-- The import statements of a source are those that its lines are written with, in their order. -/
theorem imports_of_parse {source : List Char} {tree : Tree} (h : parse source = .ok tree) :
    Imports ((lines (scan source)).flatMap (importSegments ·.tokens)) (importsOf false tree.root) := by
  obtain ⟨statements, hread, hstatements⟩ := parse_eq_ok h
  have hhead : importsOfAll false ((headLines (scan source)).flatMap Block.remarks) = [] := by
    rw [importsOfAll, pickedFrom_eq_flatMap, List.flatMap_assoc, List.flatMap_eq_nil_iff]
    intro line _
    rw [← pickedFrom_eq_flatMap]
    exact Block.importsOfAll_remarks false line
  have hroot : importsOf false tree.root = importsOfAll false statements := by
    change importsOfAll false tree.statements = _
    rw [hstatements, importsOfAll_append, hhead, List.nil_append]
  rw [hroot]
  exact (holds_of_readWithin hread).imports

/-- The comments of a source are those that were scanned. -/
theorem comments_of_parse {source : List Char} {tree : Tree} (h : parse source = .ok tree) :
    tree.comments = comments (scan source) := by
  obtain ⟨statements, hread, hstatements⟩ := parse_eq_ok h
  have hhead : commentsOfAll ((headLines (scan source)).flatMap Block.remarks) =
      (headLines (scan source)).flatMap (·.comments) := by
    rw [commentsOfAll, pickedFrom_eq_flatMap, List.flatMap_assoc]
    refine List.flatMap_congr fun line _ => ?_
    rw [← pickedFrom_eq_flatMap]
    exact Block.commentsOfAll_remarks line
  change commentsOfAll tree.statements = _
  rw [hstatements, commentsOfAll_append, hhead, (holds_of_readWithin hread).comments,
    ← List.flatMap_append, headLines_append_lines, (flatMap_linesFrom 0 _).2]

/-! ### The interface of a source -/

lemma interfaces_of_readWithin {source : List Char} {n : Nat} {lines rest : List Line}
    {ss : List Statement} (hn : lines.length < n)
    (h : Block.readWithin source n 0 lines = .ok (ss, rest)) :
    ss.filterMap interface? = (outline 0 lines).flatMap TopLevel.interfaces := by
  induction n generalizing lines ss with
  | zero => omega
  | succ n ih =>
    cases lines with
    | nil =>
      cases h
      rw [outline]
      rfl
    | cons line lines =>
      obtain ⟨⟨first, mid⟩, hstatement, h₁⟩ := Traversal.bind_eq_ok_iff.mp h
      obtain ⟨⟨further, rest'⟩, hfurther, h₂⟩ := Traversal.bind_eq_ok_iff.mp h₁
      cases h₂
      have hlength : lines.length < n := Nat.lt_of_succ_lt_succ hn
      have hremarks : (Block.remarks line).filterMap interface? = [] :=
        List.filterMap_eq_nil_iff.mpr fun _ hs => Block.interface?_of_mem_remarks hs
      have hreading := Block.readWithin_reading source n
      rw [List.append_assoc, List.filterMap_append, hremarks, List.nil_append, List.filterMap_append]
      rcases Block.statement_cases hreading hlength source hstatement with
        ⟨hline, hsimple⟩ | ⟨-, hbuilds⟩
      · obtain ⟨behind, hsimples, hmid⟩ := Block.simpleLine_eq_ok hsimple
        cases hmid
        rw [outline, if_neg (by simp [hline]), List.flatMap_cons, ← ih hlength hfurther,
          interfaces_of_simples hsimples]
        rfl
      · obtain ⟨parts, hparts, hnone⟩ := hbuilds.skips
        have hmid : mid.length < n := hbuilds.reads.length_le.trans_lt hlength
        rw [hparts, List.flatMap_append, hnone, ih hmid hfurther,
          List.filterMap_eq_nil_iff.mpr hbuilds.interface?]

/-- The statements of the interface at the top of a source are those that its outline shows. -/
theorem interfaces_of_parse {source : List Char} {tree : Tree} (h : parse source = .ok tree) :
    tree.statements.filterMap interface? =
      (outline 0 (lines (scan source))).flatMap TopLevel.interfaces := by
  obtain ⟨statements, hread, hstatements⟩ := parse_eq_ok h
  have hhead : ((headLines (scan source)).flatMap Block.remarks).filterMap interface? = [] := by
    rw [List.filterMap_eq_nil_iff]
    intro s hs
    obtain ⟨line, -, hs⟩ := List.mem_flatMap.mp hs
    exact Block.interface?_of_mem_remarks hs
  rw [hstatements, List.filterMap_append, hhead, List.nil_append,
    interfaces_of_readWithin (Nat.lt_succ_self _) hread]

end ImportFence.Source
