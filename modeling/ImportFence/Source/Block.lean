import ImportFence.Source.Pattern
import ImportFence.Source.Statement
import ImportFence.Source.Token.Scan

/-!
# Blocks

Statements with blocks, and whole sources. A block is the lines that are indented more than the
block around it, up to the first that is indented less than its own first line; lines that are
indented further belong to it too. A block may be missing.
-/

namespace ImportFence.Source

namespace Block

open Reader

def slice (source : List Char) (first last : Position) : String :=
  String.ofList ((source.drop first.offset).take (last.offset - first.offset))

def firstKind? (tokens : List Token) : Option Kind :=
  tokens.head?.map (·.kind)

/-- The place of a failure with `left` tokens left on a line. -/
def failureAt (tokens : List Token) (left : Nat) : Position :=
  match tokens.drop (tokens.length - left) with
  | t :: _ => t.start
  | [] => (tokens.getLast?.map (·.stop)).getD Position.start

/-- Runs a reader on the tokens of a line. A failure is given by its place. -/
def onLine {α : Type} (p : Reader α) (tokens : List Token) :
    Except Position (α × List Token) :=
  match p tokens with
  | .ok r => .ok r
  | .error left => .error (failureAt tokens left)

def remarks (line : Line) : List Statement :=
  line.comments.map .comment

/-- What reading lines yields: statements and the lines behind them, or the place of an error. -/
abbrev Outcome := Except Position (List Statement × List Line)

/-- Reads the block of a given indentation at the start of lines. -/
abbrev BlockReader := Nat → List Line → Outcome

/-- The block behind a colon: what follows on the line, or the lines indented more than the block
around, or nothing. -/
def suite (block : BlockReader) (around : Nat) (tokens : List Token) (lines : List Line) :
    Outcome :=
  if tokens.isEmpty then
    match lines with
    | line :: _ => if around < line.indent then block line.indent lines else .ok ([], lines)
    | [] => .ok ([], [])
  else do
    let (statements, _) ← onLine Statement.simples tokens
    return (statements, lines)

/-- The next line if it belongs to the block around and starts with a keyword. -/
def clause? (around : Nat) (word : String) (lines : List Line) : Option (Line × List Line) :=
  match lines with
  | line :: rest =>
    if around ≤ line.indent && firstKind? line.tokens == some (.keyword word) then
      some (line, rest)
    else none
  | [] => none

/-- The header of an `if` or `elif`: the text of its condition. -/
def conditionHeader (source : List Char) : Reader String := do
  advance
  let (_, tokens) ← Statement.withTokens Expression.read
  mark ":"
  match tokens.head?, tokens.getLast? with
  | some first, some last => return slice source first.start last.stop
  | _, _ => return ""

def bareHeader : Reader Unit := do
  advance
  mark ":"

/-- An optional clause that is one keyword and a block. -/
def optionalClause (block : BlockReader) (around : Nat) (word : String) (lines : List Line) :
    Outcome :=
  match clause? around word lines with
  | some (line, rest) => do
    let (_, tokens) ← onLine bareHeader line.tokens
    let (body, lines) ← suite block around tokens rest
    return (remarks line ++ body, lines)
  | none => .ok ([], lines)

/-- The further branches of a choice, at most `n`. -/
def alternatives (block : BlockReader) (source : List Char) (around : Nat) :
    Nat → List Line → Outcome
  | 0, lines => .ok ([], lines)
  | n + 1, lines =>
    match clause? around "elif" lines with
    | some (line, rest) => do
      let (_, tokens) ← onLine (conditionHeader source) line.tokens
      let (body, lines) ← suite block around tokens rest
      let (further, lines) ← alternatives block source around n lines
      return (remarks line ++ body ++ further, lines)
    | none => optionalClause block around "else" lines

def exceptHeader : Reader Unit := do
  advance
  let _ ← acceptMark "*"
  if !(← acceptMark ":") then
    let _ ← Expression.read
    if ← acceptKeyword "as" then
      let _ ← Expression.read
    else if ← acceptMark "," then
      let _ ← Expression.read
    mark ":"

/-- The exception clauses of a try statement, at most `n`, and how many there are. -/
def handlers (block : BlockReader) (around : Nat) :
    Nat → List Line → Except Position (Nat × List Statement × List Line)
  | 0, lines => .ok (0, [], lines)
  | n + 1, lines =>
    match clause? around "except" lines with
    | some (line, rest) => do
      let (_, tokens) ← onLine exceptHeader line.tokens
      let (body, lines) ← suite block around tokens rest
      let (count, further, lines) ← handlers block around n lines
      return (count + 1, remarks line ++ body ++ further, lines)
    | none => .ok (0, [], lines)

/-- The parameters of a definition, behind the opening bracket. -/
def parameters : Reader Unit := do
  let l ← Expression.levelsHere
  let _ ← itemsUpTo ")" (Expression.parameter l true)

def functionHeader : Reader Unit := do
  keyword "def"
  let _ ← name
  Statement.typeParameters
  mark "("
  parameters
  if ← acceptMark "->" then
    let _ ← Expression.list Expression.read
  mark ":"

def classHeader : Reader Unit := do
  keyword "class"
  let _ ← name
  Statement.typeParameters
  if ← acceptMark "(" then Expression.arguments (← Expression.levelsHere)
  mark ":"

def forHeader : Reader Unit := do
  keyword "for"
  Expression.targets (← Expression.levelsHere).primary
  keyword "in"
  let _ ← Expression.list Expression.read
  mark ":"

def whileHeader : Reader Unit := do
  keyword "while"
  let _ ← Expression.read
  mark ":"

def context : Reader Unit := do
  let _ ← Expression.read
  if ← acceptKeyword "as" then
    let _ ← Expression.targetItem (← Expression.levelsHere).primary

/-- The header of a statement with contexts, in brackets or not. -/
def withHeader : Reader Unit := do
  keyword "with"
  let bracketed : Reader Unit := do
    mark "("
    let _ ← items (· ≠ .mark ")") context
    mark ")"
    mark ":"
  let bare : Reader Unit := do
    let _ ← items (· ≠ .mark ":") context
    mark ":"
  either bracketed bare

def matchHeader : Reader Unit := do
  expect (.name "match")
  let _ ← Expression.list Expression.read
  mark ":"
  if !(← atEnd) then fail

def caseHeader : Reader Unit := do
  expect (.name "case")
  Pattern.read
  if ← acceptKeyword "if" then
    let _ ← Expression.read
  mark ":"

/-- The cases of a match statement in a block of a given indentation, at most `n`. -/
def cases (block : BlockReader) (indent : Nat) : Nat → List Line → Outcome
  | 0, lines => .ok ([], lines)
  | _ + 1, [] => .ok ([], [])
  | n + 1, line :: rest =>
    if line.indent < indent then .ok ([], line :: rest)
    else do
      let (_, tokens) ← onLine caseHeader line.tokens
      let (body, lines) ← suite block indent tokens rest
      let (further, lines) ← cases block indent n lines
      return (remarks line ++ body ++ further, lines)

def caseBlock (block : BlockReader) (around : Nat) (lines : List Line) : Outcome :=
  match lines with
  | line :: _ =>
    if around < line.indent then cases block line.indent lines.length lines else .ok ([], lines)
  | [] => .ok ([], [])

def decorator : Reader Unit := do
  mark "@"
  let _ ← Expression.read
  if !(← atEnd) then fail

/-- A statement with a header, a block and an optional `else` block. -/
def loop (block : BlockReader) (around : Nat) (header : Reader Unit) (tokens : List Token)
    (lines : List Line) : Outcome := do
  let (_, tokens) ← onLine header tokens
  let (body, lines) ← suite block around tokens lines
  let (otherwise, lines) ← optionalClause block around "else" lines
  return ([.compound (body ++ otherwise)], lines)

def definition (block : BlockReader) (around : Nat) (header : Reader Unit) (tokens : List Token)
    (lines : List Line) : Outcome := do
  let (_, tokens) ← onLine header tokens
  let (body, lines) ← suite block around tokens lines
  return ([.compound body], lines)

def choice (block : BlockReader) (source : List Char) (around : Nat) (tokens : List Token)
    (lines : List Line) : Outcome := do
  let (condition, tokens) ← onLine (conditionHeader source) tokens
  let (body, lines) ← suite block around tokens lines
  let (further, lines) ← alternatives block source around (lines.length + 1) lines
  return ([.choice condition body further], lines)

/-- A try statement; it has an exception clause or a `finally`. -/
def attempt (block : BlockReader) (around : Nat) (tokens : List Token) (lines : List Line) :
    Outcome := do
  let start := failureAt tokens tokens.length
  let (_, tokens) ← onLine bareHeader tokens
  let (body, lines) ← suite block around tokens lines
  let (count, handled, lines) ← handlers block around lines.length lines
  let (otherwise, lines) ←
    if count = 0 then Except.ok ([], lines) else optionalClause block around "else" lines
  if count = 0 && (clause? around "finally" lines).isNone then throw start
  let (final, lines) ← optionalClause block around "finally" lines
  return ([.compound (body ++ handled ++ otherwise ++ final)], lines)

def definitionHeader : Reader Unit := do
  let _ ← acceptKeyword "async"
  if (← peek?) = some (.keyword "def") then functionHeader else classHeader

/-- What decorators stand before, at most `n` of them further on. -/
def decorated (block : BlockReader) (around : Nat) :
    Nat → List Token → List Line → Outcome
  | 0, tokens, _ => .error (failureAt tokens tokens.length)
  | n + 1, tokens, lines => do
    if firstKind? tokens = some (.mark "@") then
      let (_, _) ← onLine decorator tokens
      match lines with
      | line :: rest =>
        if around ≤ line.indent then
          let (statements, lines) ← decorated block around n line.tokens rest
          return (remarks line ++ statements, lines)
        else throw (failureAt line.tokens line.tokens.length)
      | [] => throw (failureAt tokens 0)
    else definition block around definitionHeader tokens lines

def simpleLine (tokens : List Token) (lines : List Line) : Outcome := do
  let (statements, _) ← onLine Statement.simples tokens
  return (statements, lines)

/-- A line that starts with the word `match`: a match statement, unless the line is a simple
statement. -/
def matchLine (block : BlockReader) (around : Nat) (tokens : List Token) (lines : List Line) :
    Outcome :=
  match onLine matchHeader tokens, simpleLine tokens lines with
  | _, .ok r => .ok r
  | .ok _, .error _ => do
    let (body, lines) ← caseBlock block around lines
    return ([.compound body], lines)
  | .error _, .error e => .error e

/-- The statements that start on a line, and the lines behind them. -/
def statement (block : BlockReader) (source : List Char) (around : Nat) (tokens : List Token)
    (lines : List Line) : Outcome :=
  match firstKind? tokens, firstKind? (tokens.drop 1) with
  | some (.keyword "if"), _ => choice block source around tokens lines
  | some (.keyword "while"), _ => loop block around whileHeader tokens lines
  | some (.keyword "for"), _ => loop block around forHeader tokens lines
  | some (.keyword "try"), _ => attempt block around tokens lines
  | some (.keyword "with"), _ => definition block around withHeader tokens lines
  | some (.keyword "def"), _ => definition block around functionHeader tokens lines
  | some (.keyword "class"), _ => definition block around classHeader tokens lines
  | some (.keyword "async"), some (.keyword "for") =>
    loop block around (do advance; forHeader) tokens lines
  | some (.keyword "async"), some (.keyword "with") =>
    definition block around (do advance; withHeader) tokens lines
  | some (.keyword "async"), _ =>
    definition block around (do advance; functionHeader) tokens lines
  | some (.mark "@"), _ => decorated block around (lines.length + 1) tokens lines
  | some (.name "match"), _ => matchLine block around tokens lines
  | _, _ => simpleLine tokens lines

/-- The statements of the block of a given indentation; each takes at least one of at most `n`
lines. -/
def readWithin (source : List Char) : Nat → BlockReader
  | 0, _, lines => .ok ([], lines)
  | _ + 1, _, [] => .ok ([], [])
  | n + 1, indent, line :: lines =>
    if line.indent < indent then .ok ([], line :: lines)
    else do
      let (first, lines) ← statement (readWithin source n) source indent line.tokens lines
      let (further, lines) ← readWithin source n indent lines
      return (remarks line ++ first ++ further, lines)

end Block

/-- A source that was read, by the statements and comments at its top. -/
structure Tree where
  statements : List Statement
  deriving Inhabited

def Tree.root (tree : Tree) : Statement :=
  .compound tree.statements

def parse (source : List Char) : Except ParseError Tree :=
  let items := scan source
  let lines := lines items
  match Block.readWithin source (lines.length + 1) 0 lines with
  | .ok (statements, _) => .ok ⟨(headLines items).flatMap Block.remarks ++ statements⟩
  | .error p => .error ⟨p.line, p.column, "invalid syntax"⟩

end ImportFence.Source
