import ImportFence.Source.Block
import ImportFence.Proofs.LinePieces

/-!
# The outline of a source

The lines of a block are lines of simple statements, and headers of statements and of their clauses,
each with the lines of its block. First words, colons at the end of a line and indentation tell which
is which: a header that ends in a colon has the lines behind it for a block up to one that is indented
less than the first of them, if this one is indented more than the block around.
-/

namespace ImportFence.Source

open Statement

/-- What stands in a block: a line of simple statements, or a header with the lines of its block. -/
inductive TopLevel where
  | line (line : Line)
  | block (header : Line) (inner : List Line)

/-- The words and the mark that start a statement with blocks. -/
def blockWords : List Kind :=
  [.keyword "if", .keyword "while", .keyword "for", .keyword "try", .keyword "with", .keyword "def",
    .keyword "class", .keyword "async", .mark "@"]

def clauseWords : List String :=
  ["elif", "else", "except", "finally"]

def headerWords : List Kind :=
  blockWords ++ clauseWords.map .keyword

def endsInColon (line : Line) : Bool :=
  line.tokens.getLast?.any (·.kind = .mark ":")

/-- The word `match` only starts a header if the line ends in a colon. -/
def isHeader (line : Line) : Bool :=
  (Block.firstKind? line.tokens).any fun k =>
    headerWords.contains k || (k = .name "match" && endsInColon line)

/-- How many of the lines behind a header are its block. -/
def blockLength (around : Nat) (header : Line) : List Line → Nat
  | [] => 0
  | next :: lines =>
    if endsInColon header && around < next.indent then
      ((next :: lines).takeWhile (next.indent ≤ ·.indent)).length
    else 0

/-- The lines in a block, cut into headers with their blocks and lines of simple statements. -/
def outline (around : Nat) : List Line → List TopLevel
  | [] => []
  | line :: lines =>
    if isHeader line then
      .block line (lines.take (blockLength around line lines)) ::
        outline around (lines.drop (blockLength around line lines))
    else .line line :: outline around lines
termination_by lines => lines.length

namespace TopLevel

def lines : TopLevel → List Line
  | line l => [l]
  | block header inner => header :: inner

/-- A line of simple statements is no header. The lines of a block are indented as far as its first
one, which is indented more than the block around. -/
def Fits (around : Nat) : TopLevel → Prop
  | line l => isHeader l = false
  | block header inner => isHeader header = true ∧ ∀ first ∈ inner.head?,
      endsInColon header = true ∧ around < first.indent ∧ ∀ l ∈ inner, first.indent ≤ l.indent

/-- The statements of the interface that are written on a line of simple statements. -/
def interfaces : TopLevel → List InterfaceStatement
  | line l => (pieces l.tokens).filterMap fun piece => interfaceOf? (kindsOf piece)
  | block _ _ => []

end TopLevel

lemma flatMap_outline (around : Nat) (lines : List Line) :
    (outline around lines).flatMap TopLevel.lines = lines := by
  fun_induction outline around lines with
  | case1 => rfl
  | case2 line lines _ ih =>
    rw [List.flatMap_cons, ih, TopLevel.lines, List.cons_append, List.take_append_drop]
  | case3 line lines _ ih => rw [List.flatMap_cons, ih, TopLevel.lines, List.singleton_append]

lemma fits_block {around : Nat} {header : Line} {lines : List Line} (h : isHeader header = true) :
    (TopLevel.block header (lines.take (blockLength around header lines))).Fits around := by
  refine ⟨h, fun first hfirst => ?_⟩
  cases lines with
  | nil => cases hfirst
  | cons next lines =>
    rw [blockLength] at hfirst ⊢
    split at hfirst
    · next hblock =>
      rw [if_pos hblock]
      simp only [Bool.and_eq_true, decide_eq_true_eq] at hblock
      have hprefix := List.takeWhile_prefix (next.indent ≤ ·.indent) (l := next :: lines)
      rw [List.prefix_iff_eq_take.mp hprefix |>.symm] at hfirst ⊢
      obtain rfl : next = first := by simpa using hfirst
      refine ⟨hblock.1, hblock.2, fun l hl => ?_⟩
      simpa using List.mem_takeWhile_imp hl
    · cases hfirst

lemma fits_outline (around : Nat) (lines : List Line) :
    ∀ part ∈ outline around lines, part.Fits around := by
  fun_induction outline around lines with
  | case1 => simp
  | case2 line lines hheader ih => exact List.forall_mem_cons.mpr ⟨fits_block hheader, ih⟩
  | case3 line lines hheader ih =>
    exact List.forall_mem_cons.mpr ⟨by simpa [TopLevel.Fits] using hheader, ih⟩

/-! ### Lines without an interface -/

/-- Between some lines and the rest of them the outline only has headers and their blocks. -/
def Skips (around : Nat) (lines rest : List Line) : Prop :=
  ∃ parts, outline around lines = parts ++ outline around rest ∧
    parts.flatMap TopLevel.interfaces = []

namespace Skips

variable {around : Nat} {lines mid rest : List Line}

lemma refl : Skips around lines lines :=
  ⟨[], rfl, rfl⟩

lemma trans (h : Skips around lines mid) (h' : Skips around mid rest) :
    Skips around lines rest := by
  obtain ⟨parts, hlines, hparts⟩ := h
  obtain ⟨parts', hmid, hparts'⟩ := h'
  exact ⟨parts ++ parts', by rw [hlines, hmid, List.append_assoc],
    by rw [List.flatMap_append, hparts, hparts', List.append_nil]⟩

lemma header {line : Line} (h : isHeader line = true) (around : Nat) (lines : List Line) :
    Skips around (line :: lines) (lines.drop (blockLength around line lines)) :=
  ⟨[_], by rw [outline, if_pos h, List.singleton_append], rfl⟩

end Skips

end ImportFence.Source
