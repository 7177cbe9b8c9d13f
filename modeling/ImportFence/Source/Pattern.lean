import ImportFence.Source.Expression

/-!
# Patterns

The patterns of the cases of a match statement. They are recognised only; nothing of them is kept.
-/

namespace ImportFence.Source.Pattern

open Reader

/-- A name, with attributes behind it. -/
def path : Reader Unit := do
  let _ ← name
  whileFound do
    if ← acceptMark "." then
      let _ ← name
      return true
    else return false

/-- A number with an optional sign and an imaginary part. -/
def number : Reader Unit := do
  let _ ← acceptMark "-"
  expect .number
  if ← acceptMark "+" then expect .number
  else if ← acceptMark "-" then expect .number

/-- An argument of a class pattern: a pattern, or a name with a pattern for its value. -/
def argument (pattern : Reader Unit) : Reader Unit := do
  match ← peek?, ← peekSecond? with
  | some (.name _), some (.mark "=") =>
    advance
    advance
    pattern
  | _, _ => pattern

/-- An entry of a mapping pattern: a key with a pattern for its value, or the rest. -/
def entry (key pattern : Reader Unit) : Reader Unit := do
  if ← acceptMark "**" then
    let _ ← name
  else
    key
    mark ":"
    pattern

/-- A pattern, or a star and the name for the rest of a sequence. -/
def starred (pattern : Reader Unit) : Reader Unit := do
  if ← acceptMark "*" then
    let _ ← name
  else pattern

/-- A pattern without alternatives and alias, from the reader of whole patterns. -/
def closed (pattern : Reader Unit) : Reader Unit := do
  match ← peek? with
  | some (.name _) =>
    path
    if ← acceptMark "(" then
      let _ ← itemsUpTo ")" (argument pattern)
  | some (.keyword k) => if ["None", "True", "False"].contains k then advance else fail
  | some .stringOpen =>
    let _ ← Expression.strings Expression.read
  | some .number => number
  | some (.mark m) =>
    if m = "-" then number
    else if m = "(" then
      advance
      let _ ← itemsUpTo ")" (starred pattern)
    else if m = "[" then
      advance
      let _ ← itemsUpTo "]" (starred pattern)
    else if m = "\x7b" then
      advance
      let _ ← itemsUpTo "\x7d" (entry pattern pattern)
    else fail
  | _ => fail

/-- A pattern that nests at most `n` deep: alternatives, and a name for the whole. -/
def within : Nat → Reader Unit
  | 0 => fail
  | n + 1 => do
    closed (within n)
    whileFound do
      if ← acceptMark "|" then
        closed (within n)
        return true
      else return false
    if ← acceptKeyword "as" then
      let _ ← name

def read : Reader Unit := do
  let n ← size
  let _ ← items (fun k => k ≠ .mark ":" && k ≠ .keyword "if") (starred (within (n + 1)))
  return ()

end ImportFence.Source.Pattern
