import ImportFence.Glob

/-!
# Patterns of ignore files

Patterns over the bytes of a relative path. `?` and `*` stay within a path component, `**` between
slashes spans components, brackets choose a byte, braces choose between alternatives and a
backslash takes the next character as it is. Alternatives are spelled out: a pattern is a list of
brace-free ones, and matches where one of them does.
-/

namespace ImportFence.Ignore

/-- One unit of a brace-free pattern. -/
inductive Piece where
  | byte (b : UInt8)
  | anyOne
  | anyRun
  /-- Any directories in front of the rest, or none. -/
  | leading
  /-- A slash, or two with any directories in between. -/
  | inner
  /-- A slash and anything behind it. -/
  | rest
  | among (ranges : List (UInt8 × UInt8))
  | outside (ranges : List (UInt8 × UInt8))
  deriving DecidableEq

/-- The byte between path components. -/
def slash : UInt8 := 47

/-- Whether a byte is in one of the ranges. -/
def inRanges (ranges : List (UInt8 × UInt8)) (b : UInt8) : Bool :=
  ranges.any fun (lo, hi) => lo ≤ b && b ≤ hi

/-- Whether a property holds of what is left after some run of fitting bytes. -/
def someRun (fits : UInt8 → Bool) (next : List UInt8 → Bool) : List UInt8 → Bool
  | [] => next []
  | b :: bs => next (b :: bs) || (fits b && someRun fits next bs)

/-- Whether bytes are matched by a piece followed by what `next` accepts. -/
def Piece.accepts (next : List UInt8 → Bool) : Piece → List UInt8 → Bool
  | .byte d => Glob.oneThen (· == d) next
  | .anyOne => Glob.oneThen (· != slash) next
  | .anyRun => someRun (· != slash) next
  | .leading => fun s => next s || Glob.someBelow slash next s
  | .inner => Glob.oneThen (· == slash) fun s => next s || Glob.someBelow slash next s
  | .rest => Glob.oneThen (· == slash) (Glob.someTail next)
  | .among ranges => Glob.oneThen (inRanges ranges) next
  | .outside ranges => Glob.oneThen (fun b => !inRanges ranges b) next

def acceptsAll : List Piece → List UInt8 → Bool
  | [] => List.isEmpty
  | piece :: pieces => piece.accepts (acceptsAll pieces)

/-- A pattern: its brace-free alternatives. -/
structure Pattern where
  alternatives : List (List Piece)
  deriving DecidableEq

namespace Pattern

/-- Whether the pattern matches a relative path. `**` alone matches every path. -/
def matchesPath (p : Pattern) (path : List UInt8) : Bool :=
  p.alternatives == [[.leading]] || p.alternatives.any (acceptsAll · path)

end Pattern

/-- How reading a bracket choice ends. -/
inductive Bracket where
  | closed (ranges : List (Char × Char)) (rest : List Char)
  | unclosed
  | invalid

/-- The ranges of a bracket choice up to its closing bracket, read ones in reverse. The first
character never closes, and `inRange` tells that a dash waits for the end of its range. -/
def readBracket (first inRange : Bool) (ranges : List (Char × Char)) : List Char → Bracket
  | [] => .unclosed
  | c :: cs =>
    if c = ']' && !first then
      .closed ((if inRange then ('-', '-') :: ranges else ranges).reverse) cs
    else if c = '-' && !first && !inRange then readBracket false true ranges cs
    else if inRange then
      match ranges with
      | (lo, _) :: others =>
        if c.toNat < lo.toNat then .invalid else readBracket false false ((lo, c) :: others) cs
      | [] => .invalid
    else readBracket false false ((c, c) :: ranges) cs

/-- The bytes of the two ends of a range, of which the neighbours span a range and the others stand
for themselves. -/
def byteRanges (range : Char × Char) : List (UInt8 × UInt8) :=
  let lo := String.utf8EncodeChar range.1
  let hi := String.utf8EncodeChar range.2
  if range.1 = range.2 then lo.map fun b => (b, b)
  else
    (lo.dropLast.map fun b => (b, b)) ++ [(lo.getLastD 0, hi.headD 0)] ++
      (hi.tail.map fun b => (b, b))

/-- The part of a pattern read so far: the enclosing braces with what was read before and in them,
the finished branches of the innermost brace and the branch being read. Branches are lists of
alternatives with their pieces in reverse. -/
structure Reading where
  outer : List (List (List (List Piece)) × List (List Piece))
  branches : List (List (List Piece))
  branch : List (List Piece)

namespace Reading

def start : Reading := ⟨[], [], [[]]⟩

def inBraces (r : Reading) : Bool :=
  !r.outer.isEmpty

def push (r : Reading) (p : Piece) : Reading :=
  { r with branch := r.branch.map (p :: ·) }

/-- Adds a literal character to the branch being read. -/
def pushChar (r : Reading) (c : Char) : Reading :=
  (String.utf8EncodeChar c).foldl (fun r b => r.push (.byte b)) r

def openBrace (r : Reading) : Reading :=
  ⟨(r.branches, r.branch) :: r.outer, [], [[]]⟩

def comma (r : Reading) : Reading :=
  ⟨r.outer, r.branches ++ [r.branch], [[]]⟩

/-- Closes a brace. Empty branches do not count. -/
def closeBrace? (r : Reading) : Option Reading :=
  match r.outer with
  | [] => none
  | (branches, before) :: outer =>
    let choices := ((r.branches ++ [r.branch]).filter (· ≠ [[]])).flatten
    let branch :=
      if choices.isEmpty then before else before.flatMap fun b => choices.map (· ++ b)
    some ⟨outer, branches, branch⟩

/-- Lets a double star take the place of the separator before it. -/
def span (r : Reading) (p : Piece) : Reading :=
  { r with branch := r.branch.map fun
      | .leading :: pieces => .leading :: pieces
      | .rest :: pieces => .rest :: pieces
      | _ :: pieces => p :: pieces
      | [] => [p] }

/-- Adds a double star behind `previous`, and gives what is left of the text after it. Away from
slashes it is like a single star. -/
def doubleStar (r : Reading) (previous : Option Char) (rest : List Char) : Reading × List Char :=
  let alone := (r.push .anyRun, rest)
  if r.branch = [[]] then
    match rest with
    | [] => (r.push .leading, [])
    | '/' :: more => (r.push .leading, more)
    | _ => alone
  else if previous = some '/' ||
      (r.inBraces && (previous = some ',' || previous = some '\x7b')) then
    match rest with
    | [] => (r.span .rest, [])
    | '/' :: more => (r.span .inner, more)
    | c :: _ => if r.inBraces && (c = ',' || c = '\x7d') then (r.span .rest, rest) else alone
  else alone

/-- Adds a bracket choice. One that is never closed is a literal bracket. -/
def bracket? (r : Reading) (rest : List Char) : Option (Reading × List Char) :=
  let negated := rest.head? = some '!' || rest.head? = some '^'
  match readBracket true false [] (if negated then rest.tail else rest) with
  | .closed ranges after =>
    let ranges := ranges.flatMap byteRanges
    some (r.push (if negated then .outside ranges else .among ranges), after)
  | .unclosed => some (r.pushChar '[', rest)
  | .invalid => none

/-- Reads one unit of the text behind `previous`. -/
def step? (r : Reading) (previous : Option Char) : List Char → Option (Reading × List Char)
  | [] => some (r, [])
  | '?' :: rest => some (r.push .anyOne, rest)
  | '*' :: '*' :: rest => some (r.doubleStar previous rest)
  | '*' :: rest => some (r.push .anyRun, rest)
  | '[' :: rest => r.bracket? rest
  | '\\' :: c :: rest => some (r.pushChar c, rest)
  | '\\' :: [] => none
  | c :: rest =>
    if c = '\x7b' then some (r.openBrace, rest)
    else if c = '\x7d' then r.closeBrace?.map (·, rest)
    else if c = ',' && r.inBraces then some (r.comma, rest)
    else some (r.pushChar c, rest)

/-- Reads a text of which every unit takes at least one of `n` characters. -/
def readAll? : Nat → Option Char → Reading → List Char → Option Reading
  | 0, _, r, _ => some r
  | _ + 1, _, r, [] => some r
  | n + 1, previous, r, c :: cs => do
    let (next, rest) ← r.step? previous (c :: cs)
    readAll? n ((c :: cs)[cs.length - rest.length]?) next rest

end Reading

/-- Reads a pattern. None if a brace or an escape is left open or a range runs backwards. -/
def Pattern.parse? (text : List Char) : Option Pattern := do
  let r ← Reading.readAll? text.length none .start text
  if r.inBraces then none else return ⟨r.branch.map List.reverse⟩

end ImportFence.Ignore
