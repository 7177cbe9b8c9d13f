import ImportFence.Source.Reader

/-!
# Expressions

Expressions are recognised, and of each only what the analysis needs is kept: whether it is a name,
a string literal or a list of items, and whether it may be assigned to. Readers of parts take the
reader of whole expressions as an argument; the knot is tied at the end, with a bound on the depth.
-/

namespace ImportFence.Source

/-- What an expression is, as far as it matters. A display is a list or tuple that is written out,
with the contents of those items that are string literals. -/
inductive Shape where
  | name (text : String)
  | text (content : String)
  | display (texts : List String)
  | other
  deriving DecidableEq, Inhabited

/-- An expression: its shape, and whether it may be assigned to. -/
structure Expression where
  shape : Shape
  assignable : Bool
  deriving DecidableEq, Inhabited

namespace Expression

open Reader

/-- An expression of which nothing else matters. -/
def plain : Expression := ⟨.other, false⟩

/-- Whether a token can begin an expression, a starred one included. -/
def begins : Kind → Bool
  | .name _ => true
  | .number => true
  | .stringOpen => true
  | .keyword k => ["None", "True", "False", "lambda", "not", "await"].contains k
  | .mark m => ["(", "[", "\x7b", "-", "+", "~", "*", "**", "..."].contains m
  | _ => false

/-- The contents of those items that are string literals, empty ones left out. -/
def texts (items : List Expression) : List String :=
  items.filterMap fun e =>
    match e.shape with
    | .text s => if s = "" then none else some s
    | _ => none

def ofItems (items : List Expression) : Expression :=
  ⟨.display (texts items), items.all (·.assignable)⟩

/-- A star and the expression behind it, which may be assigned to if the latter may. -/
def starred (expression : Reader Expression) : Reader Expression := do
  if ← acceptMark "*" then
    let e ← expression
    return ⟨.other, e.assignable⟩
  else expression

/-- Expressions with commas between them. A single one without a comma stands for itself. -/
def list (expression : Reader Expression) : Reader Expression := do
  let (items, trailing) ← items begins (starred expression)
  match items, trailing with
  | [e], false => return e
  | items, _ => return ⟨.other, items.all (·.assignable)⟩

/-- A yield expression, behind the keyword. -/
def yieldRest (expression : Reader Expression) : Reader Expression := do
  if ← acceptKeyword "from" then
    let _ ← expression
    return plain
  else
    let _ ← optionalIf begins (list expression)
    return plain

/-- A yield expression or expressions with commas between them. -/
def listOrYield (expression : Reader Expression) : Reader Expression := do
  if ← acceptKeyword "yield" then yieldRest expression else list expression

/-- A part of a string literal: text, or a replacement field. Gives the text. -/
def stringPart (part : Reader (Option String)) (expression : Reader Expression) :
    Reader (Option String) := do
  match ← peek? with
  | some (.stringText s) =>
    advance
    return some s
  | some .fieldOpen =>
    advance
    let _ ← listOrYield expression
    let _ ← acceptMark "="
    let _ ← accept .conversion
    if ← accept .format then whileFound (return (← part).isSome)
    expect .fieldClose
    return some ""
  | _ => return none

/-- The parts of string literals, with at most `n` levels of formats inside formats. -/
def stringPartWithin (expression : Reader Expression) : Nat → Reader (Option String)
  | 0 => fail
  | n + 1 => stringPart (stringPartWithin expression n) expression

/-- The parts of a literal up to its closing quotes, at most `n`, put together. -/
def stringRest (part : Reader (Option String)) : Nat → Reader String
  | 0 => fail
  | n + 1 => do
    if ← accept .stringClose then return ""
    else
      match ← part with
      | some s => return s ++ (← stringRest part n)
      | none => fail

def stringLiteral (expression : Reader Expression) : Reader String := do
  expect .stringOpen
  let n ← size
  stringRest (stringPartWithin expression n) n

/-- One or more string literals next to each other. Several of them are no plain literal. -/
def strings (expression : Reader Expression) : Reader Expression := do
  let content ← stringLiteral expression
  if (← peek?) = some .stringOpen then
    whileFound do
      if (← peek?) = some .stringOpen then
        let _ ← stringLiteral expression
        return true
      else return false
    return plain
  else return ⟨.text content, false⟩

/-- A name with what may follow it: attributes, calls and subscripts. Used where an `in` must not
be taken for an operator. -/
def targetItem (primary : Reader Expression) : Reader Expression := do
  let e ← starred primary
  if e.assignable then return e else fail

def targets (primary : Reader Expression) : Reader Unit := do
  let _ ← items begins (targetItem primary)
  return ()

/-- A clause of a comprehension, if one comes next: a loop or a condition. -/
def comprehensionClause (primary disjunction : Reader Expression) : Reader Bool := do
  match ← peek?, ← peekSecond? with
  | some (.keyword "async"), some (.keyword "for") =>
    advance
    advance
    targets primary
    keyword "in"
    let _ ← disjunction
    return true
  | some (.keyword "for"), _ =>
    advance
    targets primary
    keyword "in"
    let _ ← disjunction
    return true
  | some (.keyword "if"), _ =>
    advance
    let _ ← disjunction
    return true
  | _, _ => return false

/-- Whether a comprehension begins at the next token. -/
def atComprehension : Reader Bool := do
  match ← peek? with
  | some (.keyword k) => return k = "for" || k = "async"
  | _ => return false

def atStar : Reader Bool := do
  return (← peek?) = some (.mark "*")

def comprehension (primary disjunction : Reader Expression) : Reader Unit :=
  whileFound (comprehensionClause primary disjunction)

/-- The readers of expressions at the levels of their operators. -/
structure Levels where
  /-- An expression with every operator. -/
  whole : Reader Expression
  /-- An expression without a condition at its top. -/
  disjunction : Reader Expression
  /-- An operand with attributes, calls and subscripts. -/
  primary : Reader Expression

/-- What stands in round brackets, behind the opening one. -/
def parenthesized (l : Levels) : Reader Expression := do
  if ← acceptMark ")" then return ⟨.display [], true⟩
  else if ← acceptKeyword "yield" then
    let e ← yieldRest l.whole
    mark ")"
    return e
  else
    let star ← atStar
    let first ← starred l.whole
    if !star && (← atComprehension) then
      comprehension l.primary l.disjunction
      mark ")"
      return plain
    else if ← acceptMark "," then
      let (items, _) ← itemsUpTo ")" (starred l.whole)
      return ofItems (first :: items)
    else
      mark ")"
      return ⟨.other, first.assignable⟩

/-- What stands in square brackets, behind the opening one. -/
def bracketed (l : Levels) : Reader Expression := do
  if ← acceptMark "]" then return ⟨.display [], true⟩
  else
    let star ← atStar
    let first ← starred l.whole
    if !star && (← atComprehension) then
      comprehension l.primary l.disjunction
      mark "]"
      return plain
    else if ← acceptMark "," then
      let (items, _) ← itemsUpTo "]" (starred l.whole)
      return ofItems (first :: items)
    else
      mark "]"
      return ofItems [first]

/-- An entry of a dictionary: a pair, or another dictionary unpacked. -/
def entry (l : Levels) : Reader Unit := do
  if ← acceptMark "**" then
    let _ ← l.disjunction
    return ()
  else
    let _ ← l.whole
    mark ":"
    let _ ← l.whole
    return ()

/-- The further items of braces behind the first, up to the closing one. -/
def bracedRest {α : Type} (item : Reader α) : Reader Unit := do
  if ← acceptMark "," then
    let _ ← itemsUpTo "\x7d" item
  else mark "\x7d"

/-- What stands in braces, behind the opening one: a dictionary if the first item is a pair or
unpacks a dictionary, a set otherwise. -/
def braced (l : Levels) : Reader Expression := do
  if ← acceptMark "\x7d" then return plain
  else if ← acceptMark "**" then
    let _ ← l.disjunction
    bracedRest (entry l)
    return plain
  else
    let star ← atStar
    let _ ← starred l.whole
    let pair ← if star then pure false else acceptMark ":"
    if pair then
      let _ ← l.whole
    if !star && (← atComprehension) then
      comprehension l.primary l.disjunction
      mark "\x7d"
    else if pair then bracedRest (entry l)
    else bracedRest (starred l.whole)
    return plain

def argument (l : Levels) : Reader Unit := do
  if ← acceptMark "*" then
    let _ ← l.whole
    return ()
  else if ← acceptMark "**" then
    let _ ← l.whole
    return ()
  else
    match ← peek?, ← peekSecond? with
    | some (.name _), some (.mark "=") =>
      advance
      advance
      let _ ← l.whole
      return ()
    | _, _ =>
      let _ ← l.whole
      return ()

/-- The arguments of a call, behind the opening bracket. A comprehension without brackets of its
own has to be the only argument. -/
def arguments (l : Levels) : Reader Unit := do
  if ← acceptMark ")" then return ()
  else
    argument l
    if ← atComprehension then
      comprehension l.primary l.disjunction
      mark ")"
    else if ← acceptMark "," then
      let _ ← itemsUpTo ")" (argument l)
    else mark ")"

/-- An index or a slice. -/
def subscript (l : Levels) : Reader Unit := do
  let index ← optionalIf begins (starred l.whole)
  if ← acceptMark ":" then
    let _ ← optionalIf begins l.whole
    if ← acceptMark ":" then
      let _ ← optionalIf begins l.whole
  else if index.isNone then fail

/-- The indices of a subscript, behind the opening bracket. -/
def subscripts (l : Levels) : Reader Unit := do
  if (← peek?) = some (.mark "]") then fail
  let _ ← itemsUpTo "]" (subscript l)

/-- An attribute, a call or a subscript, if one comes next. Gives whether the result may be assigned
to. -/
def trailer (l : Levels) : Reader (Option Bool) := do
  if ← acceptMark "." then
    let _ ← name
    return some true
  else if ← acceptMark "(" then
    arguments l
    return some false
  else if ← acceptMark "[" then
    subscripts l
    return some true
  else return none

/-- The trailers behind an operand, at most `n`. -/
def trailers (l : Levels) : Nat → Expression → Reader Expression
  | 0, e => return e
  | n + 1, e => do
    match ← trailer l with
    | some assignable => trailers l n ⟨.other, assignable⟩
    | none => return e

/-- An operand without trailers. -/
def atom (l : Levels) : Reader Expression := do
  match ← peek? with
  | some (.name text) =>
    advance
    return ⟨.name text, true⟩
  | some .number =>
    advance
    return plain
  | some .stringOpen => strings l.whole
  | some (.keyword k) =>
    if ["None", "True", "False"].contains k then
      advance
      return plain
    else fail
  | some (.mark m) =>
    if m = "..." then
      advance
      return plain
    else if m = "(" then
      advance
      parenthesized l
    else if m = "[" then
      advance
      bracketed l
    else if m = "\x7b" then
      advance
      braced l
    else fail
  | _ => fail

def primaryOf (l : Levels) : Reader Expression := do
  let e ← atom l
  trailers l (← size) e

/-- Whether a sign that stands before an operand comes next; it is taken. -/
def sign : Reader Bool := do
  match ← peek? with
  | some (.mark m) =>
    if ["+", "-", "~"].contains m then
      advance
      return true
    else return false
  | some (.keyword "await") =>
    advance
    return true
  | _ => return false

/-- The operators between operands that bind more tightly than comparisons. -/
def arithmeticMarks : List String :=
  ["|", "^", "&", "<<", ">>", "+", "-", "*", "/", "@", "//", "%", "**"]

def comparisonMarks : List String :=
  ["<", ">", "==", ">=", "<=", "!=", "<>"]

/-- Takes an operator that binds more tightly than `not`, if one comes next. -/
def operator : Reader Bool := do
  match ← peek?, ← peekSecond? with
  | some (.mark m), _ =>
    if arithmeticMarks.contains m || comparisonMarks.contains m then
      advance
      return true
    else return false
  | some (.keyword "in"), _ =>
    advance
    return true
  | some (.keyword "not"), some (.keyword "in") =>
    advance
    advance
    return true
  | some (.keyword "is"), _ =>
    advance
    let _ ← acceptKeyword "not"
    return true
  | _, _ => return false

/-- An operand with the signs before it. -/
def signed (l : Levels) : Reader Expression := do
  if ← sign then
    whileFound sign
    let _ ← primaryOf l
    return plain
  else primaryOf l

/-- Operands with arithmetic and comparisons between them. -/
def comparison (l : Levels) : Reader Expression := do
  let e ← signed l
  if ← operator then
    let _ ← signed l
    whileFound do
      if ← operator then
        let _ ← signed l
        return true
      else return false
    return plain
  else return e

/-- A comparison with any number of `not` before it. -/
def inversion (l : Levels) : Reader Expression := do
  if ← acceptKeyword "not" then
    whileFound (acceptKeyword "not")
    let _ ← comparison l
    return plain
  else comparison l

/-- Takes `and` or `or` if one comes next. -/
def connective : Reader Bool := do
  if ← acceptKeyword "and" then return true else acceptKeyword "or"

/-- Inversions with `and` and `or` between them. -/
def disjunctionOf (l : Levels) : Reader Expression := do
  let e ← inversion l
  if ← connective then
    let _ ← inversion l
    whileFound do
      if ← connective then
        let _ ← inversion l
        return true
      else return false
    return plain
  else return e

/-- A parameter of a function. Annotations are allowed in definitions only. -/
def parameter (l : Levels) (annotated : Bool) : Reader Unit := do
  if ← acceptMark "/" then return ()
  else
    let star ← acceptMark "*"
    let doubleStar ← if star then pure false else acceptMark "**"
    match ← peek? with
    | some (.name _) =>
      advance
      if annotated then
        if ← acceptMark ":" then
          let _ ← starred l.whole
      if ← acceptMark "=" then
        let _ ← l.whole
    | _ => if star && !doubleStar then return () else fail

/-- A function without a name, behind the keyword. -/
def lambdaRest (l : Levels) : Reader Expression := do
  if !(← acceptMark ":") then
    let _ ← items (· ≠ .mark ":") (parameter l false)
    mark ":"
  let _ ← l.whole
  return plain

/-- An expression with every operator, from readers for its parts. -/
def wholeOf (l : Levels) : Reader Expression := do
  match ← peek?, ← peekSecond? with
  | some (.keyword "lambda"), _ =>
    advance
    lambdaRest l
  | some (.name _), some (.mark ":=") =>
    advance
    advance
    let _ ← l.whole
    return plain
  | _, _ =>
    let e ← disjunctionOf l
    if ← acceptKeyword "if" then
      let _ ← disjunctionOf l
      keyword "else"
      let _ ← l.whole
      return plain
    else return e

/-- The readers of expressions that nest at most `n` deep. -/
def levels : Nat → Levels
  | 0 => ⟨fail, fail, fail⟩
  | n + 1 =>
    let l := levels n
    ⟨wholeOf l, disjunctionOf l, primaryOf l⟩

/-- The readers of expressions for the tokens at hand; each level of nesting takes a token. -/
def levelsHere : Reader Levels :=
  return levels ((← size) + 1)

def read : Reader Expression := do
  (← levelsHere).whole

end Expression

end ImportFence.Source
