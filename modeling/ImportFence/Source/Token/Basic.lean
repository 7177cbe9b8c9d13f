import ImportFence.Text.Split

/-!
# Tokens

The units of a Python source: words, numbers, marks and the parts of string literals, each with the
place where it starts and ends. Line structure is kept beside them.
-/

namespace ImportFence.Source

/-- A place in a source. Lines and columns count from 1, columns in bytes; `offset` is the number of
characters before the place. -/
structure Position where
  line : Nat
  column : Nat
  offset : Nat
  deriving DecidableEq, Inhabited

namespace Position

def start : Position := ⟨1, 1, 0⟩

/-- The place behind a character. -/
def next (p : Position) (c : Char) : Position :=
  if c = '\n' then ⟨p.line + 1, 1, p.offset + 1⟩
  else ⟨p.line, p.column + Text.charBytes c, p.offset + 1⟩

/-- The place behind a text. -/
def after (p : Position) (cs : List Char) : Position :=
  cs.foldl next p

end Position

/-- What a token is. A string literal is an opening, pieces of text and replacement fields, and a
closing; a field may end in a format. -/
inductive Kind where
  | name (text : String)
  | keyword (text : String)
  | number
  | mark (text : String)
  | stringOpen
  | stringText (text : String)
  | stringClose
  | fieldOpen
  | conversion
  | format
  | fieldClose
  | invalid
  deriving DecidableEq, Inhabited

/-- A token with its extent. -/
structure Token where
  kind : Kind
  start : Position
  stop : Position
  deriving DecidableEq, Inhabited

/-- A comment, from its `#` to the end of the line. -/
structure Comment where
  text : List Char
  start : Position
  deriving DecidableEq, Inhabited

/-- What scanning a source yields, in order. A line break ends a logical line and carries the
indentation of the next one. -/
inductive Item where
  | token (t : Token)
  | comment (c : Comment)
  | lineBreak (indent : Nat)
  deriving DecidableEq, Inhabited

def keywords : List String :=
  ["False", "None", "True", "and", "as", "assert", "async", "await", "break", "class", "continue",
    "def", "del", "elif", "else", "except", "finally", "for", "from", "global", "if", "import",
    "in", "is", "lambda", "nonlocal", "not", "or", "pass", "raise", "return", "try", "while",
    "with", "yield"]

def Kind.ofWord (word : String) : Kind :=
  if keywords.contains word then .keyword word else .name word

/-- The operators and delimiters, longer ones before those they begin with. -/
def marks : List String :=
  ["**=", "//=", ">>=", "<<=", "...", "**", "//", ">>", "<<", "<=", ">=", "==", "!=", "<>", "->",
    "+=", "-=", "*=", "/=", "%=", "@=", "&=", "|=", "^=", ":=", "+", "-", "*", "/", "%", "@", "&",
    "|", "^", "~", "<", ">", "(", ")", "[", "]", "\x7b", "\x7d", ",", ":", ";", ".", "="]

/-- The longest mark at the start of a text. -/
def markAt? (cs : List Char) : Option String :=
  marks.find? fun m => m.toList.isPrefixOf cs

end ImportFence.Source
