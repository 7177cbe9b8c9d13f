/-!
# Splitting and joining text

A separator cuts a text into pieces, empty ones included, and `join` puts them together again.
Both work on lists of characters, by recursion on the data.
-/

namespace ImportFence.Text

/-- The pieces of a text between the occurrences of a separator; always at least one. -/
def splitChars (sep : Char) : List Char → List (List Char)
  | [] => [[]]
  | c :: cs =>
    if c = sep then [] :: splitChars sep cs
    else
      match splitChars sep cs with
      | [] => [[c]]
      | piece :: pieces => (c :: piece) :: pieces

/-- Pieces put together with a separator between neighbours. -/
def joinChars (sep : List Char) : List (List Char) → List Char
  | [] => []
  | [piece] => piece
  | piece :: pieces => piece ++ sep ++ joinChars sep pieces

/-- The pieces of a string between the occurrences of a separator. -/
def split (sep : Char) (s : String) : List String :=
  (splitChars sep s.toList).map String.ofList

/-- Strings put together with a separator between neighbours. -/
def join (sep : String) (pieces : List String) : String :=
  String.ofList (joinChars sep.toList (pieces.map String.toList))

/-- What stands before and after the last occurrence of a separator, if there is one. -/
def splitLastChars? (sep : Char) : List Char → Option (List Char × List Char)
  | [] => none
  | c :: cs =>
    match splitLastChars? sep cs with
    | some (before, after) => some (c :: before, after)
    | none => if c = sep then some ([], cs) else none

/-- The rest of a text after a literal beginning, if it begins so. -/
def after? (start s : List Char) : Option (List Char) :=
  start.isPrefixOf? s

/-- Number of bytes of a character in UTF-8. -/
def charBytes (c : Char) : Nat :=
  c.utf8Size

/-- Number of bytes of characters in UTF-8. -/
def bytesOf : List Char → Nat
  | [] => 0
  | c :: cs => charBytes c + bytesOf cs

/-- Number of bytes of a text in UTF-8. -/
def bytes (s : String) : Nat :=
  bytesOf s.toList

end ImportFence.Text
