import ImportFence.Import
import ImportFence.Source.Expression

/-!
# Statements

The statements of a source as far as the analysis needs them: imports, statements that make up the
public interface, and the nesting of blocks. Simple statements are read here, off one logical line.
-/

namespace ImportFence.Source

/-- What an import statement asks for: modules, or names out of one module. -/
inductive Request where
  | modules (names : List String)
  | fromModule (level : Nat) (module : String) (names : ImportedNames)
  deriving DecidableEq, Inhabited

/-- An import statement, with the place where it starts and the line on which it ends. -/
structure ImportStatement where
  start : Position
  lastLine : Nat
  request : Request
  deriving DecidableEq, Inhabited

/-- A statement that sets or extends the public interface to, or by, a list of names. -/
structure InterfaceStatement where
  extending : Bool
  names : List String
  deriving DecidableEq, Inhabited

/-- A node of the tree of a source: a statement, or a comment. A choice has the text of its
condition, its body, and the bodies of its further branches; any other statement with blocks has the
statements of all of them. -/
inductive Statement where
  | importing (s : ImportStatement)
  | interface (s : InterfaceStatement)
  | comment (c : Comment)
  | plain
  | choice (condition : String) (consequence alternative : List Statement)
  | compound (body : List Statement)
  deriving Inhabited

namespace Statement

open Reader

def interfaceName : String := "__all__"

/-- The module whose imports change the language and import nothing. -/
def futureModule : String := "__future__"

/-- Names with dots between them, at most `n`. -/
def dottedWithin : Nat → Reader (List String)
  | 0 => fail
  | n + 1 => do
    let first ← name
    if ← acceptMark "." then return first :: (← dottedWithin n) else return [first]

def dotted : Reader String := do
  return Text.join "." (← dottedWithin (← size))

/-- A dotted name and an optional alias, which is dropped. -/
def aliased : Reader String := do
  let path ← dotted
  if ← acceptKeyword "as" then
    let _ ← name
  return path

def isName : Kind → Bool
  | .name _ => true
  | _ => false

/-- Imported names with commas between them; a comma may end the list. -/
def importList : Reader (List String) := do
  return (← items isName aliased).1

/-- The dots before the module of an import, at most `n` marks. -/
def levelWithin : Nat → Reader Nat
  | 0 => return 0
  | n + 1 => do
    if ← acceptMark "." then return (← levelWithin n) + 1
    else if ← acceptMark "..." then return (← levelWithin n) + 3
    else return 0

def listedNames : Reader (List String) := do
  if ← acceptMark "(" then
    let names ← importList
    mark ")"
    return names
  else importList

def importedNames : Reader ImportedNames := do
  if ← acceptMark "*" then return .wildcard
  else return .names (← listedNames)

/-- The request of an import statement that starts with `from`, behind that word. -/
def moduleRest : Reader Request := do
  let level ← levelWithin (← size)
  let module ←
    match ← peek? with
    | some (.name _) => dotted
    | _ => if level = 0 then fail else pure ""
  keyword "import"
  return .fromModule level module (← importedNames)

/-- What stands behind the word `from`. Behind the module that changes the language there is only a
list of names, and nothing is asked for. -/
def fromRest : Reader (Option Request) := do
  if ← accept (.name futureModule) then
    keyword "import"
    let _ ← listedNames
    return none
  else return some (← moduleRest)

def augmentedMarks : List String :=
  ["+=", "-=", "*=", "/=", "@=", "//=", "%=", "**=", ">>=", "<<=", "&=", "^=", "|="]

/-- Takes an augmenting assignment mark if one comes next. -/
def acceptAugmented : Reader Bool := do
  match ← peek? with
  | some (.mark m) =>
    if augmentedMarks.contains m then
      advance
      return true
    else return false
  | _ => return false

/-- The right side of an assignment, at most `n` further assignments in it. Only a right side that
assigns no further has a shape. -/
def rightSide : Nat → Reader Expression
  | 0 => fail
  | n + 1 => do
    let e ← Expression.listOrYield Expression.read
    if ← acceptMark "=" then
      if !e.assignable then fail
      let _ ← rightSide n
      return Expression.plain
    else return e

/-- The statement that assigns a right side to a left one. -/
def ofAssignment (left right : Expression) (extending : Bool) : Statement :=
  match left.shape, right.shape with
  | .name n, .display names => if n = interfaceName then .interface ⟨extending, names⟩ else .plain
  | _, _ => .plain

/-- An expression statement: expressions, or an assignment. -/
def expressionStatement : Reader Statement := do
  let left ← Expression.listOrYield Expression.read
  let n ← size
  if ← acceptAugmented then
    if !left.assignable then fail
    return ofAssignment left (← rightSide n) true
  else if ← acceptMark "=" then
    if !left.assignable then fail
    return ofAssignment left (← rightSide n) false
  else if ← acceptMark ":" then
    if !left.assignable then fail
    let _ ← Expression.starred Expression.read
    if ← acceptMark "=" then return ofAssignment left (← rightSide n) false
    else return .plain
  else return .plain

def atStatementEnd : Reader Bool := do
  match ← peek? with
  | none => return true
  | some k => return k = .mark ";"

def ended {α : Type} (p : Reader α) : Reader α := do
  let r ← p
  if ← atStatementEnd then return r else fail

/-- Expressions with commas between them, behind a word that makes them a statement of its own. -/
def wordStatement (word : String) : Reader Statement := do
  expect (.name word)
  let _ ← items Expression.begins Expression.read
  return .plain

/-- A statement that executes a text, with an optional scope. -/
def execStatement : Reader Statement := do
  expect (.name "exec")
  match ← peek? with
  | some .stringOpen =>
    let _ ← Expression.stringLiteral Expression.read
  | _ =>
    let _ ← name
  if ← acceptKeyword "in" then
    let _ ← items Expression.begins Expression.read
  return .plain

/-- A parameter of a type: a name with an optional bound and default, or a starred name. -/
def typeParameter : Reader Unit := do
  if ← acceptMark "*" then
    let _ ← name
  else if ← acceptMark "**" then
    let _ ← name
  else
    let _ ← name
    if ← acceptMark ":" then
      let _ ← Expression.read
  if ← acceptMark "=" then
    let _ ← Expression.starred Expression.read

/-- The type parameters in square brackets, if they come next. -/
def typeParameters : Reader Unit := do
  if ← acceptMark "[" then
    let _ ← items (· ≠ .mark "]") typeParameter
    mark "]"

def typeStatement : Reader Statement := do
  expect (.name "type")
  let _ ← name
  typeParameters
  mark "="
  let _ ← Expression.read
  return .plain

/-- A statement that starts with no keyword. Words that were statements once, or are only at their
place, are tried when it is no expression statement. -/
def openStatement : Reader Statement := do
  match ← peek? with
  | some (.name "print") => either (ended expressionStatement) (ended (wordStatement "print"))
  | some (.name "exec") => either (ended expressionStatement) (ended execStatement)
  | some (.name "type") => either (ended expressionStatement) (ended typeStatement)
  | _ => ended expressionStatement

/-- Takes expressions with commas between them if they come next. -/
def optionalList : Reader Unit := do
  let _ ← optionalIf Expression.begins (Expression.list Expression.read)
  return ()

/-- A simple statement that starts with a keyword, behind it; its import, if it is one. -/
def keywordRest (word : String) : Reader (Option Request) := do
  match word with
  | "import" => return some (.modules (← importList))
  | "from" => fromRest
  | "pass" => return none
  | "break" => return none
  | "continue" => return none
  | "return" =>
    optionalList
    return none
  | "raise" =>
    optionalList
    if ← acceptKeyword "from" then
      let _ ← Expression.read
    return none
  | "global" =>
    let _ ← items (fun _ => true) name
    return none
  | "nonlocal" =>
    let _ ← items (fun _ => true) name
    return none
  | "del" =>
    let _ ← Expression.list Expression.read
    return none
  | "assert" =>
    let _ ← items (fun _ => true) Expression.read
    return none
  | _ => fail

/-- The tokens that a reader takes, and what it reads. -/
def withTokens {α : Type} (p : Reader α) : Reader (α × List Token) :=
  fun tokens =>
    match p tokens with
    | .ok (r, rest) => .ok ((r, tokens.take (tokens.length - rest.length)), rest)
    | .error n => .error n

def importOver (request : Request) (tokens : List Token) : ImportStatement where
  start := (tokens.head?.map (·.start)).getD Position.start
  lastLine := (tokens.getLast?.map (·.stop.line)).getD 1
  request := request

def simpleKeywords : List String :=
  ["import", "from", "pass", "break", "continue", "return", "raise", "global", "nonlocal", "del",
    "assert"]

def simple : Reader Statement := do
  match ← peek? with
  | some (.keyword word) =>
    if simpleKeywords.contains word then
      let (request, tokens) ← withTokens do
        advance
        ended (keywordRest word)
      match request with
      | some r => return .importing (importOver r tokens)
      | none => return .plain
    else openStatement
  | _ => openStatement

/-- Simple statements with semicolons between them up to the end of the line, at most `n`. -/
def simplesWithin : Nat → Reader (List Statement)
  | 0 => fail
  | n + 1 => do
    let s ← simple
    if ← acceptMark ";" then
      if ← atEnd then return [s] else return s :: (← simplesWithin n)
    else if ← atEnd then return [s]
    else fail

def simples : Reader (List Statement) := do
  simplesWithin (← size)

end Statement

end ImportFence.Source
