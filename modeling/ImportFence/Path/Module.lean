import ImportFence.Path.Basic

/-!
# Module names

The dotted name under which a file or directory is imported, and arithmetic on such names:
containment, joining, and the resolution of relative imports.
-/

namespace ImportFence.Module

/-- The components of a normalized path below the first source root that contains it. -/
def belowSourceRoot? (sourceRoots : List Path) (p : Path) : Option (List Component) :=
  sourceRoots.findSome? fun root => Path.below? root.steps p.steps

def namesOf? (cs : List Component) : Option (List String) :=
  cs.mapM fun
    | .name t => some t
    | _ => none

/-- The component of a file name without its extension. A stem made of dots alone names nothing
and leads to the parent directory. -/
def stemComponent (name : String) : Component :=
  match Path.splitExtension? name with
  | none => .name name
  | some (stem, _) => if stem = "." ∨ stem = ".." then .parent else .name stem

/-- Components with the extension of the last name dropped. -/
def dropExtension : List Component → List Component
  | [] => []
  | [.name t] => [stemComponent t]
  | c :: cs => c :: dropExtension cs

/-- The stem of the file that stands for its directory. -/
def packageStem : String := "__init__"

/-- A list of names without a final `__init__`. -/
def dropPackageStem (names : List String) : List String :=
  if names.getLast? = some packageStem then names.dropLast else names

/-- The module name of a file, relative to the first source root that contains it. -/
def ofFile? (sourceRoots : List Path) (file : Path) : Option String := do
  let rest ← belowSourceRoot? sourceRoots file
  let names ← namesOf? (dropExtension rest)
  return Text.join "." (dropPackageStem names)

/-- The module name of a directory that lies properly below a source root. -/
def ofDirectory? (sourceRoots : List Path) (dir : Path) : Option String := do
  let rest ← belowSourceRoot? sourceRoots dir
  let names ← namesOf? rest
  if names.isEmpty then none else return Text.join "." names

/-- Whether a module is `outer` itself or lies below it: `a.b` covers `a.b.c` but not `a.bc`. -/
def covers (outer inner : String) : Bool :=
  match Text.after? outer.toList inner.toList with
  | none => false
  | some [] => true
  | some (c :: _) => c == '.'

/-- A module name followed by a member; an empty one on either side adds nothing. -/
def join (module member : String) : String :=
  if module = "" then member
  else if member = "" then module
  else module ++ "." ++ member

/-- A list without its last `n` elements, if it has that many. -/
def climb? {α : Type} : Nat → List α → Option (List α)
  | 0, names => some names
  | _ + 1, [] => none
  | n + 1, a :: names => climb? n ((a :: names).dropLast)

/-- The absolute name of a module imported with `level` leading dots from the module `file`.
There is none when the dots climb above the source root. -/
def resolveRelative? (file : String) (isPackage : Bool) (level : Nat) (module : String) :
    Option String := do
  let names := if file = "" then [] else Text.split '.' file
  let dir ← climb? (if isPackage then 0 else 1) names
  let base ← climb? (level - 1) dir
  return join (Text.join "." base) module

def isPackageFile (p : Path) : Bool :=
  p.stem? = some packageStem

end ImportFence.Module
