import ImportFence.Text.Split

/-!
# JSON output

JSON values and their indented form: two blanks per level, members in the order given, characters
beyond ASCII as they are.
-/

namespace ImportFence

/-- A JSON value; the numbers of this tool are natural. -/
inductive Json where
  | null
  | boolean (b : Bool)
  | number (n : Nat)
  | text (s : String)
  | array (items : List Json)
  | object (members : List (String × Json))
  deriving Inhabited

namespace Json

/-- A hexadecimal digit, in lower case. -/
def hexDigit (n : Nat) : Char :=
  if n < 10 then Char.ofNat ('0'.toNat + n) else Char.ofNat ('a'.toNat + (n - 10))

/-- A character of a string, escaped where it has to be. -/
def escape (c : Char) : List Char :=
  if c = '"' then ['\\', '"']
  else if c = '\\' then ['\\', '\\']
  else if c = '\n' then ['\\', 'n']
  else if c = '\r' then ['\\', 'r']
  else if c = '\t' then ['\\', 't']
  else if c = '\x08' then ['\\', 'b']
  else if c = '\x0c' then ['\\', 'f']
  else if c.toNat < 0x20 then
    ['\\', 'u', '0', '0', hexDigit (c.toNat / 16), hexDigit (c.toNat % 16)]
  else [c]

def quote (s : String) : String :=
  "\"" ++ String.ofList (s.toList.flatMap escape) ++ "\""

def lineAt (level : Nat) : String :=
  "\n" ++ String.ofList (List.replicate (2 * level) ' ')

/-- Parts between brackets, one per line; no parts give empty brackets. -/
def enclose (opening closing : String) (level : Nat) (parts : List String) : String :=
  if parts.isEmpty then opening ++ closing
  else
    opening ++ lineAt (level + 1) ++ Text.join ("," ++ lineAt (level + 1)) parts ++ lineAt level ++
      closing

mutual

def renderAt (level : Nat) : Json → String
  | .null => "null"
  | .boolean b => if b then "true" else "false"
  | .number n => toString n
  | .text s => quote s
  | .array items => enclose "[" "]" level (renderItems (level + 1) items)
  | .object members => enclose "\x7b" "\x7d" level (renderMembers (level + 1) members)

def renderItems (level : Nat) : List Json → List String
  | [] => []
  | item :: items => renderAt level item :: renderItems level items

def renderMembers (level : Nat) : List (String × Json) → List String
  | [] => []
  | (key, value) :: members =>
    (quote key ++ ": " ++ renderAt level value) :: renderMembers level members

end

def render (j : Json) : String :=
  renderAt 0 j

/-- A member that is left out when it has no value. -/
def optionalMember (key : String) : Option String → List (String × Json)
  | some s => [(key, .text s)]
  | none => []

end Json

end ImportFence
