import ImportFence.Toml.Document
import ImportFence.Toml.Quoted

/-!
# Reading TOML

Keys, values and statements of a TOML document, read from a list of characters. Each reader gives
what it read and the rest of the text.
-/

namespace ImportFence.Toml

/-- Space and tab. -/
def isBlank (c : Char) : Bool :=
  c == ' ' || c == '\t'

/-- A text without the blanks at its start. -/
def skipBlanks (cs : List Char) : List Char :=
  cs.dropWhile isBlank

/-- A text without blanks and a comment at its start. -/
def skipRemark (cs : List Char) : List Char :=
  match skipBlanks cs with
  | '#' :: rest => rest.dropWhile Quoted.isPlain
  | rest => rest

/-- The text behind a line break. -/
def afterLineBreak? : List Char → Option (List Char)
  | '\n' :: rest => some rest
  | '\r' :: '\n' :: rest => some rest
  | _ => none

/-- The text behind the end of the line, at which only blanks and a comment may stand. -/
def afterLine? (cs : List Char) : Option (List Char) :=
  match skipRemark cs with
  | [] => some []
  | rest => afterLineBreak? rest

/-- A text without blanks, comments and line breaks at its start, at most `n` lines of them. -/
def skipLines : Nat → List Char → List Char
  | 0, cs => cs
  | n + 1, cs =>
    match afterLineBreak? (skipRemark cs) with
    | some rest => skipLines n rest
    | none => skipRemark cs

/-- A text without blanks, comments and line breaks at its start. -/
def skipFiller (cs : List Char) : List Char :=
  skipLines cs.length cs

/-- Characters of a key without quotes. -/
def isKeyChar (c : Char) : Bool :=
  c.isAlphanum || c == '_' || c == '-'

def readKey (cs : List Char) : Option (String × List Char) :=
  match cs with
  | '"' :: rest => (Quoted.readBasic rest).map fun (s, r) => (String.ofList s, r)
  | '\'' :: rest => (Quoted.readLiteral rest).map fun (s, r) => (String.ofList s, r)
  | _ =>
    match cs.takeWhile isKeyChar with
    | [] => none
    | key => some (String.ofList key, cs.dropWhile isKeyChar)

/-- Reads keys with dots between them, at most `n`: all but the last, and the last. -/
def readKeys : Nat → List Char → Option ((List String × String) × List Char)
  | 0, _ => none
  | n + 1, cs => do
    let (key, rest) ← readKey (skipBlanks cs)
    match skipBlanks rest with
    | '.' :: rest =>
      let ((path, last), rest) ← readKeys n rest
      return ((key :: path, last), rest)
    | rest => return (([], key), rest)

def readPath (cs : List Char) : Option ((List String × String) × List Char) :=
  readKeys (cs.length + 1) cs

/-- Reads the items of an array behind its opening bracket, at most `n`. -/
def readItems (item : List Char → Option (Value × List Char)) :
    Nat → List Char → Option (List Value × List Char)
  | 0, _ => none
  | n + 1, cs =>
    match skipFiller cs with
    | ']' :: rest => some ([], rest)
    | cs => do
      let (value, rest) ← item cs
      match skipFiller rest with
      | ',' :: rest =>
        let (values, rest) ← readItems item n rest
        return (value :: values, rest)
      | ']' :: rest => return ([value], rest)
      | _ => none

def readPair (value : List Char → Option (Value × List Char)) (cs : List Char) :
    Option ((List String × String × Value) × List Char) := do
  let ((path, key), rest) ← readPath cs
  match rest with
  | '=' :: rest =>
    let (v, rest) ← value (skipBlanks rest)
    return ((path, key, v), rest)
  | _ => none

/-- Reads the pairs of a table in braces, at least one and at most `n`. -/
def readPairs (value : List Char → Option (Value × List Char)) :
    Nat → List Char → Option (List (List String × String × Value) × List Char)
  | 0, _ => none
  | n + 1, cs => do
    let (pair, rest) ← readPair value cs
    match skipBlanks rest with
    | ',' :: rest =>
      let (pairs, rest) ← readPairs value n rest
      return (pair :: pairs, rest)
    | '}' :: rest => return ([pair], rest)
    | _ => none

/-- Characters of a value without quotes or brackets. -/
def isBareChar (c : Char) : Bool :=
  c.isAlphanum || c == '_' || c == '-' || c == '+' || c == '.' || c == ':'

def readBare (cs : List Char) : Option (Value × List Char) :=
  match cs.takeWhile isBareChar with
  | [] => none
  | word =>
    let rest := cs.dropWhile isBareChar
    if word = "true".toList then some (.boolean true, rest)
    else if word = "false".toList then some (.boolean false, rest)
    else some (.bare (String.ofList word), rest)

/-- Reads a value with at most `n` levels of nesting. -/
def readValueWithin : Nat → List Char → Option (Value × List Char)
  | 0, _ => none
  | n + 1, cs =>
    match cs with
    | '[' :: rest =>
      (readItems (readValueWithin n) rest.length rest).map fun (vs, r) => (.array vs, r)
    | '{' :: rest =>
      match skipBlanks rest with
      | '}' :: rest => some (.table .inline [], rest)
      | rest => do
        let (pairs, rest) ← readPairs (readValueWithin n) rest.length rest
        let entries ← (inlineEntries pairs).toOption
        return (.table .inline entries, rest)
    | '"' :: _ => (Quoted.read cs).map fun (s, r) => (.text (String.ofList s), r)
    | '\'' :: _ => (Quoted.read cs).map fun (s, r) => (.text (String.ofList s), r)
    | _ => readBare cs

def readValue (cs : List Char) : Option (Value × List Char) :=
  readValueWithin (cs.length + 1) cs

def readStatement (cs : List Char) : Option (Statement × List Char) :=
  match cs with
  | '[' :: '[' :: rest => do
    let ((path, key), rest) ← readPath rest
    match rest with
    | ']' :: ']' :: rest => return (.listHeader path key, ← afterLine? rest)
    | _ => none
  | '[' :: rest => do
    let ((path, key), rest) ← readPath rest
    match rest with
    | ']' :: rest => return (.header path key, ← afterLine? rest)
    | _ => none
  | _ => do
    let ((path, key, value), rest) ← readPair readValue cs
    return (.pair path key value, ← afterLine? rest)

/-- Number of the line on which a rest of a text begins. -/
def lineOf (whole rest : List Char) : Nat :=
  (whole.take (whole.length - rest.length)).count '\n' + 1

/-- Reads the statements of a document, at most `n` lines. -/
def readStatements (whole : List Char) : Nat → List Char → Except Error (List Statement)
  | 0, _ => .ok []
  | n + 1, cs =>
    match afterLine? cs with
    | some [] => .ok []
    | some rest => readStatements whole n rest
    | none =>
      match readStatement (skipBlanks cs) with
      | some (statement, rest) => do
        return statement :: (← readStatements whole n rest)
      | none => .error (.malformed (lineOf whole cs))

/-- A text without a byte order mark at its start. -/
def skipByteOrderMark : List Char → List Char
  | '\uFEFF' :: rest => rest
  | rest => rest

def parse (text : String) : Except Error Entries := do
  let cs := skipByteOrderMark text.toList
  assemble (← readStatements cs (cs.length + 1) cs)

end ImportFence.Toml
