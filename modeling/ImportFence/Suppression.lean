import ImportFence.Text.Split
import ImportFence.Text.WhiteSpace

/-!
# Suppression comments

A comment with the marker and the word `ignore`, and an optional `reason="..."` behind them, exempts
an import from checking. Alone on its line it covers the next line, behind code it covers its own.
-/

namespace ImportFence

/-- A suppression comment, with the reason it gives. -/
structure Directive where
  reason : Option String
  deriving DecidableEq, Inhabited

namespace Directive

def marker : String := "tagbound:"

/-- The quoted reason at the start of what follows `ignore`. A reason that is malformed or not
closed counts as none. -/
def reasonOf (rest : List Char) : Option String := do
  let value ← Text.after? "reason=".toList (Text.trimChars rest)
  let quoted ← Text.after? ['"'] (Text.trimChars value)
  if quoted.contains '"' then return String.ofList (quoted.takeWhile (· ≠ '"')) else none

/-- Reads a comment, from its `#` on, as a directive. -/
def ofComment? (comment : List Char) : Option Directive := do
  let body ← Text.after? ['#'] (Text.trimChars comment)
  let directive ← Text.after? marker.toList (Text.trimChars body)
  let rest ← Text.after? "ignore".toList (Text.trimChars directive)
  if rest.head?.any (fun c => !Text.isWhite c) then none
  else return ⟨reasonOf rest⟩

end Directive

/-- The lines of a file covered by directives, ascending, each with the directive covering it. -/
structure SuppressedLines where
  entries : List (Nat × Directive)
  deriving DecidableEq, Inhabited

namespace SuppressedLines

def empty : SuppressedLines := ⟨[]⟩

/-- Puts an entry at its place among ascending ones, unless its line is covered already. -/
def insert (line : Nat) (d : Directive) : List (Nat × Directive) → List (Nat × Directive)
  | [] => [(line, d)]
  | (l, e) :: rest =>
    if line < l then (line, d) :: (l, e) :: rest
    else if line = l then (l, e) :: rest
    else (l, e) :: insert line d rest

def covered (line : Nat) (standalone : Bool) : Nat :=
  if standalone then line + 1 else line

/-- Records a directive found on a line. The first one recorded for a covered line stays. -/
def record (s : SuppressedLines) (line : Nat) (standalone : Bool) (d : Directive) :
    SuppressedLines :=
  ⟨insert (covered line standalone) d s.entries⟩

/-- The directive of the least covered line from `first` to `last`. -/
def find? (s : SuppressedLines) (first last : Nat) : Option Directive :=
  (s.entries.find? fun (l, _) => first ≤ l && l ≤ last).map (·.2)

end SuppressedLines

end ImportFence
