import ImportFence.Text.Split

/-!
# Paths

A path is a text, read as a list of components: repeated slashes, a trailing slash and inner `.`
components say nothing, a leading `.` and every `..` are kept. Paths are compared and ordered
component by component.
-/

namespace ImportFence

/-- One step of a path. -/
inductive Component where
  | root
  | current
  | parent
  | name (text : String)
  deriving DecidableEq, Inhabited

namespace Component

/-- The place of a component's kind in the order of components. -/
def rank : Component → Nat
  | .root => 0
  | .current => 1
  | .parent => 2
  | .name _ => 3

/-- The component as it is written between slashes. -/
def text : Component → String
  | .root => ""
  | .current => "."
  | .parent => ".."
  | .name t => t

/-- Components are ordered by kind, names among themselves by code point. -/
def compare (a b : Component) : Ordering :=
  compareLex (compareOn rank) (compareOn text) a b

/-- The component that a text between two slashes denotes. -/
def ofText (t : String) : Component :=
  if t = "." then .current else if t = ".." then .parent else .name t

end Component

/-- A path as it was written. -/
structure Path where
  text : String
  deriving DecidableEq, Inhabited

namespace Path

/-- The non-empty texts between the slashes of a path. -/
def segments (p : Path) : List String :=
  (Text.split '/' p.text).filter (· ≠ "")

def isAbsolute (p : Path) : Bool :=
  p.text.toList.head? == some '/'

/-- The components of a path. A `.` counts only as the first component of a relative path. -/
def components (p : Path) : List Component :=
  let named := (p.segments.map Component.ofText).filter (· ≠ .current)
  if p.isAbsolute then .root :: named
  else if p.segments.head? = some "." then .current :: named
  else named

/-- The path with these components, written with single slashes. -/
def ofComponents (cs : List Component) : Path :=
  match cs with
  | .root :: rest => ⟨"/" ++ Text.join "/" (rest.map Component.text)⟩
  | rest => ⟨Text.join "/" (rest.map Component.text)⟩

/-- The components of a path that lead somewhere: a leading `.` is left out. -/
def steps (p : Path) : List Component :=
  p.components.filter (· ≠ .current)

/-- The path without `.` components and superfluous slashes. -/
def normalize (p : Path) : Path :=
  ofComponents p.steps

/-- Paths are ordered component by component. -/
def compare (a b : Path) : Ordering :=
  List.compareLex Component.compare a.components b.components

/-- Two paths with the same components. -/
def same (a b : Path) : Bool :=
  a.components = b.components

def names (p : Path) : List String :=
  p.components.filterMap fun
    | .name t => some t
    | _ => none

/-- The last component, if it is a name. -/
def fileName? (p : Path) : Option String :=
  match p.components.getLast? with
  | some (.name t) => some t
  | _ => none

/-- A file name cut at its last dot, unless that dot is its first character. -/
def splitExtension? (name : String) : Option (String × String) :=
  match Text.splitLastChars? '.' name.toList with
  | some (c :: before, after) => some (String.ofList (c :: before), String.ofList after)
  | _ => none

/-- What follows the last dot of the file name. -/
def extension? (p : Path) : Option String :=
  p.fileName?.bind fun name => (splitExtension? name).map (·.2)

/-- The file name without its extension. -/
def stem? (p : Path) : Option String :=
  p.fileName?.map fun name => ((splitExtension? name).map (·.1)).getD name

/-- Another path below a directory; an absolute one stands for itself. -/
def join (dir rest : Path) : Path :=
  if rest.isAbsolute then rest
  else if dir.text = "" || dir.text.toList.getLast? = some '/' then ⟨dir.text ++ rest.text⟩
  else ⟨dir.text ++ "/" ++ rest.text⟩

/-- The components of a path below a directory given by its own components. -/
def below? (dir : List Component) (p : List Component) : Option (List Component) :=
  dir.isPrefixOf? p

/-- Whether some named component starts with a dot. -/
def isHidden (p : Path) : Bool :=
  p.names.any fun t => t.toList.head? == some '.'

end Path

end ImportFence
