import ImportFence.Source.Token.Basic

/-!
# Reading tokens

A reader takes tokens off the front of a logical line. When it fails it says how many tokens were
left, so that of two failures the one further on can be told.
-/

namespace ImportFence.Source

/-- A reader of tokens; the error is the number of tokens left where it failed. -/
abbrev Reader := StateT (List Token) (Except Nat)

namespace Reader

variable {α : Type}

def fail : Reader α :=
  fun tokens => .error tokens.length

/-- The next token's kind, which is not taken. -/
def peek? : Reader (Option Kind) :=
  fun tokens => .ok ((tokens.head?.map (·.kind)), tokens)

/-- The kind of the token behind the next one. -/
def peekSecond? : Reader (Option Kind) :=
  fun tokens => .ok (((tokens.drop 1).head?.map (·.kind)), tokens)

def atEnd : Reader Bool :=
  return (← peek?).isNone

def size : Reader Nat :=
  fun tokens => .ok (tokens.length, tokens)

/-- Takes the next token. -/
def advance : Reader Unit
  | [] => .error 0
  | _ :: rest => .ok ((), rest)

/-- Takes a token of a given kind. -/
def expect (kind : Kind) : Reader Unit := do
  if (← peek?) = some kind then advance else fail

/-- Takes a token of a given kind if it comes next, and tells whether it did. -/
def accept (kind : Kind) : Reader Bool := do
  if (← peek?) = some kind then
    advance
    return true
  else return false

/-- Takes a mark. -/
def mark (text : String) : Reader Unit :=
  expect (.mark text)

/-- Takes a mark if it comes next. -/
def acceptMark (text : String) : Reader Bool :=
  accept (.mark text)

/-- Takes a keyword. -/
def keyword (text : String) : Reader Unit :=
  expect (.keyword text)

/-- Takes a keyword if it comes next. -/
def acceptKeyword (text : String) : Reader Bool :=
  accept (.keyword text)

/-- Takes a name. -/
def name : Reader String := do
  match ← peek? with
  | some (.name text) =>
    advance
    return text
  | _ => fail

/-- Takes what a first reader takes, or else what a second one does. If both fail, the failure
further on counts. -/
def either (p q : Reader α) : Reader α :=
  fun tokens =>
    match p tokens with
    | .ok r => .ok r
    | .error a =>
      match q tokens with
      | .ok r => .ok r
      | .error b => .error (min a b)

/-- Takes something if the next token can begin it. -/
def optionalIf (begins : Kind → Bool) (p : Reader α) : Reader (Option α) := do
  match ← peek? with
  | some kind => if begins kind then return some (← p) else return none
  | none => return none

/-- Items with commas between them, at most `n`, and whether a comma ends the list. The list goes
on behind a comma as long as an item can begin there. -/
def itemsWithin (begins : Kind → Bool) (p : Reader α) : Nat → Reader (List α × Bool)
  | 0 => fail
  | n + 1 => do
    let item ← p
    if ← acceptMark "," then
      match ← optionalIf begins (itemsWithin begins p n) with
      | some (items, trailing) => return (item :: items, trailing)
      | none => return ([item], true)
    else return ([item], false)

/-- One or more items with commas between them, and whether a comma ends the list. -/
def items (begins : Kind → Bool) (p : Reader α) : Reader (List α × Bool) := do
  itemsWithin begins p (← size)

/-- Items with commas between them up to a closing mark, and whether a comma ends the list. -/
def itemsUpTo (closing : String) (p : Reader α) : Reader (List α × Bool) := do
  if ← acceptMark closing then return ([], false)
  else
    let found ← items (· ≠ .mark closing) p
    mark closing
    return found

/-- Repeats a reader that tells whether it found something, at most `n` times. -/
def repeatWithin (p : Reader Bool) : Nat → Reader Unit
  | 0 => return ()
  | n + 1 => do
    if ← p then repeatWithin p n

def whileFound (p : Reader Bool) : Reader Unit := do
  repeatWithin p (← size)

end Reader

end ImportFence.Source
