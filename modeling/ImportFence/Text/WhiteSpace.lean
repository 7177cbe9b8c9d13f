/-!
# White space

The characters of the Unicode property `White_Space`, and trimming by it. The zero-width space,
the byte order mark and the information separators are not white space.
-/

namespace ImportFence.Text

/-- The characters with the Unicode property `White_Space`. -/
def isWhite (c : Char) : Bool :=
  let n := c.toNat
  (9 ≤ n && n ≤ 13) || n == 0x20 || n == 0x85 || n == 0xA0 || n == 0x1680 ||
    (0x2000 ≤ n && n ≤ 0x200A) || n == 0x2028 || n == 0x2029 || n == 0x202F || n == 0x205F ||
    n == 0x3000

/-- The blank characters among the first 128: space, tab, line feed, form feed, carriage return. -/
def isPlainBlank (c : Char) : Bool :=
  c == ' ' || c == '\t' || c == '\n' || c == '\x0c' || c == '\r'

/-- A text without the white space at its start. -/
def trimStart (cs : List Char) : List Char :=
  cs.dropWhile isWhite

/-- A text without the white space at its end. -/
def trimEnd (cs : List Char) : List Char :=
  (cs.reverse.dropWhile isWhite).reverse

/-- A text without the white space at either end. -/
def trimChars (cs : List Char) : List Char :=
  trimEnd (trimStart cs)

/-- A string without the white space at either end. -/
def trim (s : String) : String :=
  String.ofList (trimChars s.toList)

end ImportFence.Text
