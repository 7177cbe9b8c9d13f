import ImportFence.Ignore.Pattern
import ImportFence.Text.Split
import ImportFence.Text.WhiteSpace

/-!
# Rules of ignore files

A line of an ignore file is a comment, nothing, or a rule: a pattern that ignores what it matches
or, behind an exclamation mark, keeps it. The last rule that matches decides.
-/

namespace ImportFence.Ignore

/-- What a rule says of a path it matches. -/
inductive Verdict where
  | ignored
  | kept
  deriving DecidableEq, Inhabited

/-- A rule. -/
structure Rule where
  pattern : Pattern
  verdict : Verdict
  directoriesOnly : Bool
  deriving DecidableEq

namespace Rule

def endsIn (ending text : List Char) : Bool :=
  ending.reverse.isPrefixOf text.reverse

/-- A line without the white space at its end, unless that is escaped. -/
def trimLine (line : List Char) : List Char :=
  if endsIn ['\\', ' '] line then line else Text.trimEnd line

/-- The verdict of a rule, whether it starts at the ignore file's directory, and its text from
there on. -/
def readStart : List Char → Verdict × Bool × List Char
  | '\\' :: '!' :: rest => (.ignored, false, '!' :: rest)
  | '\\' :: '#' :: rest => (.ignored, false, '#' :: rest)
  | '!' :: '/' :: rest => (.kept, true, rest)
  | '!' :: rest => (.kept, false, rest)
  | '/' :: rest => (.ignored, true, rest)
  | rest => (.ignored, false, rest)

/-- Whether a rule's text ends in a slash and so is for directories only, and the text without that
slash and without a backslash before it. -/
def readEnd (text : List Char) : Bool × List Char :=
  match text.reverse with
  | '/' :: '\\' :: rest => (true, rest.reverse)
  | '/' :: rest => (true, rest.reverse)
  | _ => (false, text)

/-- The pattern of a rule's text. Without a slash it matches at any depth; with `/**` at its end it
matches only what is inside. -/
def patternText (anchored : Bool) (text : List Char) : List Char :=
  let deep :=
    if anchored || text.contains '/' || text = ['*', '*'] then text
    else '*' :: '*' :: '/' :: text
  if endsIn ['/', '*', '*'] deep then deep ++ ['/', '*'] else deep

/-- The rule on a line, if there is one. A pattern that cannot be read is no rule. -/
def ofLine? (line : List Char) : Option Rule :=
  if line.head? = some '#' then none
  else
    let line := trimLine line
    if line.isEmpty then none
    else
      let (verdict, anchored, text) := readStart line
      let (directoriesOnly, text) := readEnd text
      (Pattern.parse? (patternText anchored text)).map fun pattern =>
        { pattern, verdict, directoriesOnly }

def applies (path : List UInt8) (isDirectory : Bool) (r : Rule) : Bool :=
  (isDirectory || !r.directoriesOnly) && r.pattern.matchesPath path

end Rule

/-- The byte order mark, which may stand before the first line of a file. -/
def byteOrderMark : Char := '\ufeff'

def rulesOfLines : List String → List Rule
  | [] => []
  | first :: more =>
    ((first.toList.dropWhile (· = byteOrderMark)) :: more.map String.toList).filterMap Rule.ofLine?

/-- What the last of the rules that match says of a relative path. -/
def verdictOf? (rules : List Rule) (path : List UInt8) (isDirectory : Bool) : Option Verdict :=
  (rules.reverse.find? (Rule.applies path isDirectory)).map (·.verdict)

end ImportFence.Ignore
