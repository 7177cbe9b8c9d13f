import ImportFence.Sorted
import ImportFence.Source.Block
import ImportFence.Suppression

/-!
# Imports and interface of a source

The imports of a source with the suppression that covers them, and the names that its top-level
statements make its public interface.
-/

namespace ImportFence.Source

/-- Whether a condition holds only for type checkers. -/
def isTypeCheckingGuard (condition : String) : Bool :=
  let text := Text.trim condition
  text = "TYPE_CHECKING" || text = "typing.TYPE_CHECKING"

/-- The statements that a walk enters from a statement. Without the imports for type checkers, only
the further branches of a guard are entered. -/
def Statement.entered (ignoreTypeChecking : Bool) : Statement → List Statement
  | .choice condition consequence alternative =>
    if ignoreTypeChecking && isTypeCheckingGuard condition then alternative
    else consequence ++ alternative
  | .compound body => body
  | _ => []

mutual

def Statement.size : Statement → Nat
  | .choice _ consequence alternative => sizeOfAll consequence + sizeOfAll alternative + 1
  | .compound body => sizeOfAll body + 1
  | _ => 1

def sizeOfAll : List Statement → Nat
  | [] => 0
  | s :: rest => s.size + sizeOfAll rest

end

theorem sizeOfAll_append (ss ss' : List Statement) :
    sizeOfAll (ss ++ ss') = sizeOfAll ss + sizeOfAll ss' := by
  induction ss with
  | nil => simp [sizeOfAll]
  | cons s ss ih => simp [sizeOfAll, ih, Nat.add_assoc]

theorem sizeOfAll_reverse (ss : List Statement) : sizeOfAll ss.reverse = sizeOfAll ss := by
  induction ss with
  | nil => rfl
  | cons s ss ih => simp [sizeOfAll_append, sizeOfAll, ih, Nat.add_comm]

theorem Statement.sizeOfAll_entered (ignoreTypeChecking : Bool) (s : Statement) :
    sizeOfAll (s.entered ignoreTypeChecking) < s.size := by
  cases s with
  | choice condition consequence alternative =>
    rw [entered]
    split
    · simp only [size]
      omega
    · simp only [sizeOfAll_append, size]
      omega
  | compound body => simp [entered, size]
  | _ => simp [entered, size, sizeOfAll]

/-- Visits the statements on a stack, whose top is the head of the list, and those that are entered
from them. What is entered from a statement goes on the stack in its order, so that the last one is
visited first. -/
def walk {σ : Type} (ignoreTypeChecking : Bool) (visit : σ → Statement → σ) :
    List Statement → σ → σ
  | [], found => found
  | s :: stack, found =>
    walk ignoreTypeChecking visit ((s.entered ignoreTypeChecking).reverse ++ stack) (visit found s)
termination_by stack => sizeOfAll stack
decreasing_by
  have hentered := s.sizeOfAll_entered ignoreTypeChecking
  simp only [sizeOfAll_append, sizeOfAll_reverse, sizeOfAll]
  omega

/-- Whether only blanks stand before a place on its line. -/
def startsItsLine (source : List Char) (p : Position) : Bool :=
  ((source.take p.offset).reverse.takeWhile (· ≠ '\n')).all Text.isPlainBlank

/-- Records a statement that is a comment with a directive. -/
def recordComment (source : List Char) (lines : SuppressedLines) : Statement → SuppressedLines
  | .comment c =>
    match Directive.ofComment? c.text with
    | some d => lines.record c.start.line (startsItsLine source c.start) d
    | none => lines
  | _ => lines

/-- The lines that the comments in a source suppress. -/
def suppressedLines (source : List Char) (root : Statement) : SuppressedLines :=
  walk false (recordComment source) [root] SuppressedLines.empty

/-- The module and names of each import that a statement makes, with the number of leading dots. -/
def Request.records : Request → List (Nat × String × ImportedNames)
  | .modules names => names.map fun n => (0, n, .wildcard)
  | .fromModule level module names => [(level, module, names)]

/-- The imports that a statement makes, before directives are looked at. -/
def ImportStatement.found (s : ImportStatement) : List Import :=
  s.request.records.map fun (level, module, names) => {
    line := s.start.line
    column := s.start.column
    level, module, names
    suppressed := false
    reason := none }

def Import.suppress (d : Directive) (i : Import) : Import :=
  { i with suppressed := true, reason := d.reason }

/-- Collects the imports of a statement behind those of others. A directive on any of its lines
covers all that it added. -/
def collectImports (suppressed : SuppressedLines) (imports : List Import) :
    Statement → List Import
  | .importing s =>
    let first := imports.length
    let imports := imports ++ s.found
    if imports.length = first then imports
    else
      match suppressed.find? s.start.line s.lastLine with
      | some d => imports.take first ++ (imports.drop first).map (Import.suppress d)
      | none => imports
  | _ => imports

/-- By line and column. -/
def comparePlaces (a b : Import) : Ordering :=
  compareLex (compareOn (·.line)) (compareOn (·.column)) a b

/-- The imports of a source in the order of their places. -/
def extractImports (ignoreTypeChecking : Bool) (source : String) :
    Except ParseError (List Import) := do
  let cs := source.toList
  let tree ← parse cs
  let suppressed := suppressedLines cs tree.root
  let imports := walk ignoreTypeChecking (collectImports suppressed) [tree.root] []
  return Sorted.sort comparePlaces imports

/-- The interface after one more statement: set by an assignment, extended by an augmented one. -/
def interfaceAfter (names : Option (List String)) : Statement → Option (List String)
  | .interface s =>
    match names, s.extending with
    | some known, true => some (known ++ s.names)
    | _, _ => some s.names
  | _ => names

/-- The names that the top-level statements of a source make its public interface. -/
def publicNames (source : String) : Except ParseError (Option (List String)) := do
  return (← parse source.toList).statements.foldl interfaceAfter none

end ImportFence.Source

namespace ImportFence

def Extractor.python : Extractor where
  extensions := ["py"]
  entryModule := "__init__.py"
  imports := Source.extractImports
  publicNames := Source.publicNames

end ImportFence
