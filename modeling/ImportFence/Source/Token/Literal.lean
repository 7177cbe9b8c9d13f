import ImportFence.Source.Token.Basic

/-!
# Literals

How far number and string literals reach. The text of a string literal is kept as it is written:
escapes are recognised, so that they do not end it, and not decoded.
-/

namespace ImportFence.Source

/-- Decimal digits and the underscore between them. -/
def isDigitOrUnderscore (c : Char) : Bool :=
  c.isDigit || c == '_'

/-- Hexadecimal digits and the underscore between them. -/
def isHexOrUnderscore (c : Char) : Bool :=
  isDigitOrUnderscore c || ('a' ≤ c && c ≤ 'f') || ('A' ≤ c && c ≤ 'F')

/-- Cuts a text behind its longest beginning whose characters all fit. -/
def cutWhile (fits : Char → Bool) (cs : List Char) : List Char × List Char :=
  (cs.takeWhile fits, cs.dropWhile fits)

/-- The exponent at the start of a text, if there is one. -/
def exponentAt (cs : List Char) : List Char :=
  match cs with
  | e :: rest =>
    if e == 'e' || e == 'E' then
      match rest with
      | s :: d :: _ =>
        if (s == '+' || s == '-') && d.isDigit then
          e :: s :: (rest.drop 1).takeWhile isDigitOrUnderscore
        else if s.isDigit then e :: rest.takeWhile isDigitOrUnderscore
        else []
      | [d] => if d.isDigit then [e, d] else []
      | [] => []
    else []
  | [] => []

def numberSuffixAt (cs : List Char) : List Char :=
  match cs with
  | c :: _ => if ['j', 'J', 'l', 'L'].contains c then [c] else []
  | [] => []

/-- The fraction at the start of a text: a point and the digits behind it. -/
def fractionAt (cs : List Char) : List Char :=
  match cs with
  | '.' :: rest => '.' :: rest.takeWhile isDigitOrUnderscore
  | _ => []

def decimalAt (cs : List Char) : List Char :=
  let whole := cs.takeWhile isDigitOrUnderscore
  let fraction := fractionAt (cs.drop whole.length)
  let mantissa := whole ++ fraction
  let exponent := exponentAt (cs.drop mantissa.length)
  let number := mantissa ++ exponent
  number ++ numberSuffixAt (cs.drop number.length)

/-- The number at the start of a text that begins with a digit, or with a point and a digit. -/
def numberAt (cs : List Char) : List Char :=
  match cs with
  | '0' :: x :: rest =>
    if ['x', 'X', 'o', 'O', 'b', 'B'].contains x then
      '0' :: x :: rest.takeWhile isHexOrUnderscore
    else decimalAt cs
  | _ => decimalAt cs

/-- How a string literal is quoted and read. -/
structure Quote where
  mark : Char
  triple : Bool
  raw : Bool
  formatted : Bool
  bytes : Bool
  deriving DecidableEq, Inhabited

namespace Quote

def closing (q : Quote) : List Char :=
  if q.triple then [q.mark, q.mark, q.mark] else [q.mark]

end Quote

/-- The letters that may stand before the quotes of a string literal. -/
def isStringFlag (c : Char) : Bool :=
  ['f', 'F', 'r', 'R', 'b', 'B', 'u', 'U'].contains c

/-- The opening of the string literal at the start of a text: flags and quotes, and how it is
quoted. -/
def quoteAt? (cs : List Char) : Option (List Char × Quote) :=
  let (flags, rest) := cutWhile isStringFlag cs
  match rest with
  | m :: rest =>
    if m == '"' || m == '\'' then
      let triple := rest.take 2 == [m, m]
      let quote : Quote := {
        mark := m
        triple
        raw := flags.any fun c => c == 'r' || c == 'R'
        formatted := flags.any fun c => c == 'f' || c == 'F'
        bytes := flags.any fun c => c == 'b' || c == 'B' }
      some (flags ++ quote.closing, quote)
    else none
  | [] => none

/-- How a stretch of literal text ends. -/
inductive StretchEnd where
  | closed
  | field
  | broken
  deriving DecidableEq, Inhabited

/-- A named character escape at the start of a text: a name in braces. -/
def namedEscapeAt (cs : List Char) : List Char :=
  match cs with
  | 'N' :: '{' :: rest =>
    match cutWhile (· ≠ '}') rest with
    | (name, '}' :: _) => 'N' :: '{' :: name ++ ['}']
    | _ => []
  | _ => []

def StretchEnd.keep (c : Char) (r : List Char × StretchEnd) : List Char × StretchEnd :=
  (c :: r.1, r.2)

/-- The text of a literal up to its closing quotes or to the next replacement field. `skip` counts
the characters of an escape that are still to be taken. -/
def stretch (q : Quote) : Nat → List Char → List Char × StretchEnd
  | _, [] => ([], .broken)
  | skip, c :: cs =>
    if c = '\x00' then ([], .broken)
    else if skip ≠ 0 then StretchEnd.keep c (stretch q (skip - 1) cs)
    else if c = '\\' then
      if !q.raw && !q.bytes && namedEscapeAt cs ≠ [] then
        StretchEnd.keep c (stretch q (namedEscapeAt cs).length cs)
      else if q.formatted && (cs.head? == some '{' || cs.head? == some '}') then
        StretchEnd.keep c (stretch q 0 cs)
      else if cs.take 2 == ['\r', '\n'] then StretchEnd.keep c (stretch q 2 cs)
      else StretchEnd.keep c (stretch q 1 cs)
    else if q.closing.isPrefixOf (c :: cs) then ([], .closed)
    else if c = '\n' && !q.triple then ([], .broken)
    else if q.formatted && (c = '{' || c = '}') then
      if cs.head? == some c then StretchEnd.keep c (stretch q 1 cs)
      else ([], if c = '{' then .field else .broken)
    else StretchEnd.keep c (stretch q 0 cs)

/-- The literal text of a field's format, up to a nested field or the end of the field. -/
def formatText (q : Quote) (cs : List Char) : List Char :=
  cs.takeWhile fun c =>
    c ≠ '{' && c ≠ '}' && c ≠ q.mark && c ≠ '\x00' && (c ≠ '\n' || q.triple)

end ImportFence.Source
