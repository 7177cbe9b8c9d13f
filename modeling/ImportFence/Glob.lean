import ImportFence.Path.Basic

/-!
# Glob patterns

Patterns over whole texts: `?` is any one character, `*` any run of characters, `**` any number of
leading directories, brackets a choice of characters. The single-character and run wildcards match
a slash and a leading dot like any other character.
-/

namespace ImportFence

namespace Glob

/-- A member of a bracket choice. -/
inductive Member where
  | one (c : Char)
  | range (lo hi : Char)
  deriving DecidableEq

namespace Member

/-- Whether a character is among those of the member; ranges go by code point. -/
def holds (c : Char) : Member → Bool
  | .one d => c == d
  | .range lo hi => lo.toNat ≤ c.toNat && c.toNat ≤ hi.toNat

end Member

/-- One unit of a pattern. -/
inductive Piece where
  | literal (c : Char)
  | anyOne
  | anyRun
  | directories
  | among (members : List Member)
  | outside (members : List Member)
  deriving DecidableEq

/-- Why a text is no pattern. -/
inductive Cause where
  | invalidRange
  | tooManyStars
  | doubleStarNotAlone
  deriving DecidableEq, Inhabited

/-- What is wrong with a pattern, and at which of its characters. -/
structure Error where
  position : Nat
  cause : Cause
  deriving DecidableEq, Inhabited

namespace Error

def causeText : Cause → String
  | .invalidRange => "invalid range pattern"
  | .tooManyStars => "wildcards are either regular `*` or recursive `**`"
  | .doubleStarNotAlone => "recursive wildcards must form a single path component"

def message (e : Error) : String :=
  "Pattern syntax error near position " ++ toString e.position ++ ": " ++ causeText e.cause

end Error

def members : List Char → List Member
  | lo :: '-' :: hi :: rest => .range lo hi :: members rest
  | c :: rest => .one c :: members rest
  | [] => []

/-- What stands before the first closing bracket and what after it. The first character never
closes. -/
def bracketBody? : List Char → Option (List Char × List Char)
  | [] => none
  | first :: rest =>
    match rest.dropWhile (· ≠ ']') with
    | [] => none
    | _ :: after => some (first :: rest.takeWhile (· ≠ ']'), after)

/-- The first piece of a pattern text, with the number of characters it takes and the text after
it. `position` is the index of the first character, `atStart` tells whether the piece begins a path
component. -/
def piece? (position : Nat) (atStart : Bool) : List Char → Except Error (Piece × List Char)
  | '?' :: rest => .ok (.anyOne, rest)
  | '*' :: '*' :: '*' :: _ => .error ⟨position + 2, .tooManyStars⟩
  | '*' :: '*' :: rest =>
    if !atStart then .error ⟨position - 1, .doubleStarNotAlone⟩
    else
      match rest with
      | [] => .ok (.directories, [])
      | '/' :: rest => .ok (.directories, rest)
      | _ :: _ => .error ⟨position + 2, .doubleStarNotAlone⟩
  | '*' :: rest => .ok (.anyRun, rest)
  | '[' :: '!' :: rest =>
    match bracketBody? rest with
    | some (body, after) => .ok (.outside (members body), after)
    | none => .error ⟨position, .invalidRange⟩
  | '[' :: rest =>
    match bracketBody? rest with
    | some (body, after) => .ok (.among (members body), after)
    | none => .error ⟨position, .invalidRange⟩
  | c :: rest => .ok (.literal c, rest)
  | [] => .error ⟨position, .invalidRange⟩

/-- The pieces of a pattern text of which `total` characters are known. The bound on the number
of pieces is the length of the text. -/
def piecesWithin (total : Nat) (atStart : Bool) : Nat → List Char → Except Error (List Piece)
  | 0, _ => .ok []
  | _ + 1, [] => .ok []
  | n + 1, c :: cs => do
    let (piece, rest) ← piece? (total - (c :: cs).length) atStart (c :: cs)
    let atStart := piece == .literal '/' || piece == .directories
    let pieces ← piecesWithin total atStart n rest
    return piece :: pieces

end Glob

/-- A pattern with the text it was written as. -/
structure Glob where
  text : String
  pieces : List Glob.Piece
  deriving DecidableEq

namespace Glob

def parse (text : String) : Except Error Glob := do
  let cs := text.toList
  let pieces ← piecesWithin cs.length true cs.length cs
  return ⟨text, pieces⟩

/-- Whether a property holds of some end of a text. -/
def someTail {α : Type} (holds : List α → Bool) : List α → Bool
  | [] => holds []
  | c :: cs => holds (c :: cs) || someTail holds cs

/-- Whether a property holds of what follows some occurrence of a separator. -/
def someBelow {α : Type} [BEq α] (sep : α) (holds : List α → Bool) : List α → Bool
  | [] => false
  | c :: cs => (c == sep && holds cs) || someBelow sep holds cs

/-- Whether a single character fits a condition and the rest a continuation. -/
def oneThen {α : Type} (fits : α → Bool) (next : List α → Bool) : List α → Bool
  | [] => false
  | c :: cs => fits c && next cs

/-- Whether a text is matched by a piece followed by what `next` accepts. -/
def Piece.accepts (next : List Char → Bool) : Piece → List Char → Bool
  | .literal d => oneThen (· == d) next
  | .anyOne => oneThen (fun _ => true) next
  | .anyRun => someTail next
  | .directories => fun s => next s || someBelow '/' next s
  | .among ms => oneThen (fun c => ms.any (Member.holds c)) next
  | .outside ms => oneThen (fun c => !ms.any (Member.holds c)) next

/-- Whether pieces match a whole text. `**` at the end takes any rest. -/
def accepts : List Piece → List Char → Bool
  | [] => List.isEmpty
  | [.directories] => fun _ => true
  | piece :: pieces => piece.accepts (accepts pieces)

/-- Whether the pattern matches the whole of a text. -/
def matchesText (g : Glob) (s : String) : Bool :=
  accepts g.pieces s.toList

/-- Whether the pattern matches a path as a whole or one of its names. -/
def excludes (g : Glob) (p : Path) : Bool :=
  g.matchesText p.normalize.text || p.names.any g.matchesText

end Glob

/-- Whether one of the patterns matches the path as a whole or one of its names. -/
def Path.isExcluded (p : Path) (patterns : List Glob) : Bool :=
  patterns.any (·.excludes p)

end ImportFence
