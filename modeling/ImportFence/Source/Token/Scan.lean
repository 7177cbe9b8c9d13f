import ImportFence.Source.Name
import ImportFence.Source.Token.Literal

/-!
# Scanning

Cuts a source into tokens, comments and line breaks. Inside brackets and replacement fields a line
break is a blank. What cannot be a token is marked invalid, and scanning ends there.
-/

namespace ImportFence.Source

/-- What scanning is inside of: brackets, a replacement field of a literal, or a field's format. -/
inductive Enclosure where
  | bracket
  | field (quote : Quote)
  | format (quote : Quote)
  deriving DecidableEq, Inhabited

/-- What the next characters belong to: code, the text of a literal, or the format of a field. -/
inductive Mode where
  | code
  | literal (quote : Quote)
  | format (quote : Quote)
  deriving DecidableEq, Inhabited

/-- The state of scanning. `indent` is set after the end of a line, to the indentation read so far
on the next one. -/
structure Scanner where
  mode : Mode
  enclosures : List Enclosure
  indent : Option Nat
  position : Position
  deriving DecidableEq, Inhabited

namespace Scanner

def start : Scanner := ⟨.code, [], none, Position.start⟩

/-- What follows a replacement field: the format it is part of, or the text of its literal. -/
def resume (quote : Quote) (enclosures : List Enclosure) : Mode :=
  match enclosures with
  | .format _ :: _ => .format quote
  | _ => .literal quote

/-- A step of scanning: what was found, how many characters it took, and the state behind it. A
step without a state is the last one. -/
structure Step where
  found : List Item
  taken : List Char
  next : Option Scanner

/-- The step of an invalid token, behind which nothing is scanned. -/
def invalid (s : Scanner) (cs : List Char) : Step :=
  let stop := s.position.after (cs.take 1)
  ⟨[.token ⟨.invalid, s.position, stop⟩], cs, none⟩

/-- Blanks that a line's indentation does not count. -/
def isOddBlank (c : Char) : Bool :=
  c == '\x0b' || c == '\u200B' || c == '\u2060' || c == '\uFEFF'

/-- Blanks between tokens, line breaks included. -/
def isGap (c : Char) : Bool :=
  (9 ≤ c.toNat && c.toNat ≤ 13) || c == ' ' || isOddBlank c

/-- The indentation behind one more blank. -/
def indentAfter (c : Char) (n : Nat) : Nat :=
  if c = ' ' then n + 1 else if c = '\t' then n + 8 else 0

/-- A backslash and the line break behind it, or the end of the source. -/
def continuationAt (cs : List Char) : List Char :=
  match cs with
  | ['\\'] => ['\\']
  | '\\' :: '\n' :: _ => ['\\', '\n']
  | '\\' :: '\r' :: '\n' :: _ => ['\\', '\r', '\n']
  | ['\\', '\r'] => ['\\', '\r']
  | _ => []

def skip (s : Scanner) (taken : List Char) : Step :=
  ⟨[], taken, some { s with position := s.position.after taken }⟩

/-- A token, and the line break that was due before it. -/
def emit (s : Scanner) (kind : Kind) (taken : List Char) (mode : Mode)
    (enclosures : List Enclosure) : Step :=
  let stop := s.position.after taken
  let token := Item.token ⟨kind, s.position, stop⟩
  let found := match s.indent with
    | some n => [.lineBreak n, token]
    | none => [token]
  ⟨found, taken, some ⟨mode, enclosures, none, stop⟩⟩

/-- The enclosures behind a mark. -/
def enclosuresAfter (mark : String) (enclosures : List Enclosure) : List Enclosure :=
  if ["(", "[", "\x7b"].contains mark then .bracket :: enclosures
  else if [")", "]", "\x7d"].contains mark then enclosures.drop 1
  else enclosures

/-- A mark, which in a replacement field may end the field or begin its format. -/
def markStep (s : Scanner) (cs : List Char) : Step :=
  match s.enclosures, cs with
  | .field quote :: outer, '}' :: _ => s.emit .fieldClose ['}'] (resume quote outer) outer
  | .field quote :: outer, ':' :: _ =>
    s.emit .format [':'] (.format quote) (.format quote :: outer)
  | .field _ :: _, '!' :: c :: _ =>
    if c = '=' then s.emit (.mark "!=") ['!', '='] .code s.enclosures
    else if 'a' ≤ c ∧ c ≤ 'z' then s.emit .conversion ['!', c] .code s.enclosures
    else s.invalid cs
  | _, _ =>
    match markAt? cs with
    | some m => s.emit (.mark m) m.toList .code (enclosuresAfter m s.enclosures)
    | none => s.invalid cs

/-- A step in code that is no blank and no comment. -/
def tokenStep (s : Scanner) (cs : List Char) : Step :=
  match quoteAt? cs with
  | some (opening, quote) => s.emit .stringOpen opening (.literal quote) s.enclosures
  | none =>
    match cs with
    | [] => ⟨[], [], none⟩
    | c :: rest =>
      if isNameStart c then
        let word := cs.takeWhile isNameChar
        s.emit (.ofWord (String.ofList word)) word .code s.enclosures
      else if c.isDigit || (c == '.' && rest.head?.any Char.isDigit) then
        s.emit .number (numberAt cs) .code s.enclosures
      else s.markStep cs

def codeStep (s : Scanner) (cs : List Char) : Step :=
  match cs with
  | [] => ⟨[], [], none⟩
  | c :: _ =>
    if c = '#' then
      let text := cs.takeWhile fun c => c ≠ '\n' && c ≠ '\x00'
      ⟨[.comment ⟨text, s.position⟩], text,
        some { s with position := s.position.after text }⟩
    else if continuationAt cs ≠ [] then s.skip (continuationAt cs)
    else if isOddBlank c || (isGap c && !s.enclosures.isEmpty) then s.skip (cs.takeWhile isGap)
    else if c = '\n' then { s with indent := some 0 }.skip ['\n']
    else if isGap c then { s with indent := s.indent.map (indentAfter c) }.skip [c]
    else s.tokenStep cs

def literalStep (s : Scanner) (quote : Quote) (cs : List Char) : Step :=
  let (text, ending) := stretch quote 0 cs
  let middle := s.position.after text
  let piece := Item.token ⟨.stringText (String.ofList text), s.position, middle⟩
  match ending with
  | .broken => s.invalid cs
  | .closed =>
    let stop := middle.after quote.closing
    ⟨[piece, .token ⟨.stringClose, middle, stop⟩], text ++ quote.closing,
      some { s with mode := .code, position := stop }⟩
  | .field =>
    let stop := middle.after ['{']
    ⟨[piece, .token ⟨.fieldOpen, middle, stop⟩], text ++ ['{'],
      some { s with
        mode := .code, enclosures := .field quote :: s.enclosures, position := stop }⟩

def formatStep (s : Scanner) (quote : Quote) (cs : List Char) : Step :=
  let text := formatText quote cs
  match cs.drop text.length with
  | '}' :: _ =>
    let outer := s.enclosures.drop 1
    let s := { s with position := s.position.after text }
    let step := s.emit .fieldClose ['}'] (resume quote outer) outer
    { step with taken := text ++ ['}'] }
  | '{' :: _ =>
    let s := { s with position := s.position.after text }
    let step := s.emit .fieldOpen ['{'] .code (.field quote :: s.enclosures)
    { step with taken := text ++ ['{'] }
  | _ => s.invalid cs

def step (s : Scanner) (cs : List Char) : Step :=
  match s.mode with
  | .code => s.codeStep cs
  | .literal quote => s.literalStep quote cs
  | .format quote => s.formatStep quote cs

/-- The items of a text, in at most `n` steps. -/
def items : Nat → Scanner → List Char → List Item
  | 0, _, _ => []
  | n + 1, s, cs =>
    let r := s.step cs
    match r.next with
    | none => r.found
    | some s => r.found ++ items n s (cs.drop r.taken.length)

end Scanner

/-- The items of a source. Each step takes at least one character. -/
def scan (source : List Char) : List Item :=
  Scanner.items (source.length + 1) Scanner.start source

def comments (items : List Item) : List Comment :=
  items.filterMap fun
    | .comment c => some c
    | _ => none

/-- A logical line: its indentation, its tokens, and the comments up to the next line. -/
structure Line where
  indent : Nat
  tokens : List Token
  comments : List Comment
  deriving DecidableEq, Inhabited

/-- The logical lines of a source. Items before the first line break are on the line whose
indentation is given. -/
def linesFrom (indent : Nat) : List Item → List Line
  | [] => [⟨indent, [], []⟩]
  | .lineBreak n :: items => ⟨indent, [], []⟩ :: linesFrom n items
  | .comment c :: items =>
    match linesFrom indent items with
    | [] => [⟨indent, [], [c]⟩]
    | line :: lines => { line with comments := c :: line.comments } :: lines
  | .token t :: items =>
    match linesFrom indent items with
    | [] => [⟨indent, [t], []⟩]
    | line :: lines => { line with tokens := t :: line.tokens } :: lines

/-- What stands above the first token, where there can only be comments. -/
def headLines (items : List Item) : List Line :=
  (linesFrom 0 items).takeWhile (·.tokens.isEmpty)

/-- The logical lines. Every line break stands before a token, so all of them have tokens. -/
def lines (items : List Item) : List Line :=
  (linesFrom 0 items).dropWhile (·.tokens.isEmpty)

end ImportFence.Source
