/-!
# Quoted text

The four quoted forms of a TOML string: between double or single quotes, on one line or on several.
Each reader starts behind the opening quotes and gives the text and what follows the closing ones.
The writer takes the first form that needs no escape, and escapes otherwise.
-/

namespace ImportFence.Toml.Quoted

/-- Characters that stand for themselves in any string on one line, quotes and backslash apart. -/
def isPlain (c : Char) : Bool :=
  c == '\t' || (0x20 ≤ c.toNat && c.toNat ≠ 0x7F)

def hexValue? (c : Char) : Option Nat :=
  if '0' ≤ c ∧ c ≤ '9' then some (c.toNat - '0'.toNat)
  else if 'a' ≤ c ∧ c ≤ 'f' then some (c.toNat - 'a'.toNat + 10)
  else if 'A' ≤ c ∧ c ≤ 'F' then some (c.toNat - 'A'.toNat + 10)
  else none

/-- The character whose code point is written in hexadecimal digits. -/
def charOfHex? (digits : List Char) : Option Char := do
  let values ← digits.mapM hexValue?
  let n := values.foldl (fun n d => 16 * n + d) 0
  if n.isValidChar then some (Char.ofNat n) else none

/-- The character that a one-letter escape stands for. -/
def charOfEscape? (c : Char) : Option Char :=
  if c = 'b' then some '\x08'
  else if c = 't' then some '\t'
  else if c = 'n' then some '\n'
  else if c = 'f' then some '\x0c'
  else if c = 'r' then some '\r'
  else if c = '"' then some '"'
  else if c = '\\' then some '\\'
  else none

/-- A text read so far, with one more character in front. -/
def withChar (c : Char) (r : List Char × List Char) : List Char × List Char :=
  (c :: r.1, r.2)

/-- Reads a string in double quotes on one line. -/
def readBasic : List Char → Option (List Char × List Char)
  | [] => none
  | '"' :: rest => some ([], rest)
  | '\\' :: 'u' :: a :: b :: c :: d :: rest => do
    let x ← charOfHex? [a, b, c, d]
    return withChar x (← readBasic rest)
  | '\\' :: 'U' :: a :: b :: c :: d :: e :: f :: g :: h :: rest => do
    let x ← charOfHex? [a, b, c, d, e, f, g, h]
    return withChar x (← readBasic rest)
  | '\\' :: x :: rest => do
    let x ← charOfEscape? x
    return withChar x (← readBasic rest)
  | c :: rest =>
    if isPlain c && c ≠ '\\' then (readBasic rest).map (withChar c) else none

/-- Reads a string in single quotes on one line. -/
def readLiteral : List Char → Option (List Char × List Char)
  | [] => none
  | '\'' :: rest => some ([], rest)
  | c :: rest => if isPlain c then (readLiteral rest).map (withChar c) else none

/-- Whether blanks and then a line break come next. -/
def lineBreakAhead (cs : List Char) : Bool :=
  match cs.dropWhile (fun c => c == ' ' || c == '\t') with
  | '\n' :: _ => true
  | '\r' :: '\n' :: _ => true
  | _ => false

/-- Reads a string in triple double quotes. While `skipping`, after a backslash at the end of a
line, blanks and line breaks are left out. Up to two quotes may stand before the closing three. -/
def readMultiBasic (skipping : Bool) : List Char → Option (List Char × List Char)
  | [] => none
  | '"' :: '"' :: '"' :: '"' :: '"' :: rest => some (['"', '"'], rest)
  | '"' :: '"' :: '"' :: '"' :: rest => some (['"'], rest)
  | '"' :: '"' :: '"' :: rest => some ([], rest)
  | '\r' :: '\n' :: rest =>
    if skipping then readMultiBasic true rest
    else (readMultiBasic false rest).map (withChar '\n')
  | '\n' :: rest =>
    if skipping then readMultiBasic true rest
    else (readMultiBasic false rest).map (withChar '\n')
  | '\\' :: 'u' :: a :: b :: c :: d :: rest => do
    let x ← charOfHex? [a, b, c, d]
    return withChar x (← readMultiBasic false rest)
  | '\\' :: 'U' :: a :: b :: c :: d :: e :: f :: g :: h :: rest => do
    let x ← charOfHex? [a, b, c, d, e, f, g, h]
    return withChar x (← readMultiBasic false rest)
  | '\\' :: x :: rest =>
    if lineBreakAhead (x :: rest) then readMultiBasic true (x :: rest)
    else do
      let x ← charOfEscape? x
      return withChar x (← readMultiBasic false rest)
  | c :: rest =>
    if skipping && (c == ' ' || c == '\t') then readMultiBasic true rest
    else if isPlain c && c ≠ '\\' then (readMultiBasic false rest).map (withChar c)
    else none

/-- Reads a string in triple single quotes. Up to two quotes may stand before the closing three. -/
def readMultiLiteral : List Char → Option (List Char × List Char)
  | [] => none
  | '\'' :: '\'' :: '\'' :: '\'' :: '\'' :: rest => some (['\'', '\''], rest)
  | '\'' :: '\'' :: '\'' :: '\'' :: rest => some (['\''], rest)
  | '\'' :: '\'' :: '\'' :: rest => some ([], rest)
  | '\r' :: '\n' :: rest => (readMultiLiteral rest).map (withChar '\n')
  | '\n' :: rest => (readMultiLiteral rest).map (withChar '\n')
  | c :: rest => if isPlain c then (readMultiLiteral rest).map (withChar c) else none

/-- A text without a line break at its start. -/
def dropLineBreak : List Char → List Char
  | '\n' :: rest => rest
  | '\r' :: '\n' :: rest => rest
  | rest => rest

/-- Reads a string in any of the four forms, from its opening quote on. -/
def read : List Char → Option (List Char × List Char)
  | '"' :: '"' :: '"' :: rest => readMultiBasic false (dropLineBreak rest)
  | '\'' :: '\'' :: '\'' :: rest => readMultiLiteral (dropLineBreak rest)
  | '"' :: rest => readBasic rest
  | '\'' :: rest => readLiteral rest
  | _ => none

/-- Control characters that only an escape can write. -/
def isControl (c : Char) : Bool :=
  (c.toNat ≤ 0x1F || c.toNat == 0x7F) && c ≠ '\t' && c ≠ '\n'

/-- The length of the longest run of a character, given the length of the run just read. -/
def longestRun (q : Char) : Nat → List Char → Nat
  | run, [] => run
  | run, c :: cs => if c = q then longestRun q (run + 1) cs else max run (longestRun q 0 cs)

/-- The quoted forms. -/
inductive Form where
  | basic
  | literal
  | multiBasic
  | multiLiteral
  deriving DecidableEq, Inhabited

/-- The form in which a text is written: the first that can show it, the plainest first. -/
def formOf (cs : List Char) : Form :=
  let control := cs.any isControl
  let lineBreak := cs.contains '\n'
  if !control && !cs.contains '\\' && !cs.contains '"' && !lineBreak then .basic
  else if !control && !cs.contains '\'' && !lineBreak then .literal
  else if !control && !cs.contains '\\' && longestRun '"' 0 cs < 3 then .multiBasic
  else if !control && longestRun '\'' 0 cs < 3 then .multiLiteral
  else if lineBreak then .multiBasic
  else .basic

/-- A hexadecimal digit, in upper case. -/
def hexDigit (n : Nat) : Char :=
  if n < 10 then Char.ofNat ('0'.toNat + n) else Char.ofNat ('A'.toNat + (n - 10))

/-- A character between double quotes, escaped where it has to be. Line breaks and quotes are left
to the form. -/
def escape (c : Char) : List Char :=
  if c = '\\' then ['\\', '\\']
  else if c = '\x08' then ['\\', 'b']
  else if c = '\t' then ['\\', 't']
  else if c = '\x0c' then ['\\', 'f']
  else if c = '\r' then ['\\', 'r']
  else if isControl c then
    ['\\', 'u', '0', '0', hexDigit (c.toNat / 16), hexDigit (c.toNat % 16)]
  else [c]

/-- A character of a string in double quotes on one line. -/
def escapeBasic (c : Char) : List Char :=
  if c = '"' then ['\\', '"'] else if c = '\n' then ['\\', 'n'] else escape c

/-- The characters of a string in triple double quotes, after `run` quotes. The third quote of a
run is escaped, and the count starts again. -/
def escapeMulti : Nat → List Char → List Char
  | _, [] => []
  | run, c :: cs =>
    if c = '"' then
      if run = 2 then '\\' :: '"' :: escapeMulti 0 cs else '"' :: escapeMulti (run + 1) cs
    else escape c ++ escapeMulti 0 cs

/-- The line break that opens a string written on several lines. -/
def opening (cs : List Char) : List Char :=
  if cs.contains '\n' then ['\n'] else []

def writeIn (form : Form) (cs : List Char) : List Char :=
  match form with
  | .basic => '"' :: (cs.flatMap escapeBasic ++ ['"'])
  | .literal => '\'' :: (cs ++ ['\''])
  | .multiBasic => '"' :: '"' :: '"' :: (opening cs ++ escapeMulti 0 cs ++ ['"', '"', '"'])
  | .multiLiteral => '\'' :: '\'' :: '\'' :: (opening cs ++ cs ++ ['\'', '\'', '\''])

def write (cs : List Char) : List Char :=
  writeIn (formOf cs) cs

end ImportFence.Toml.Quoted
