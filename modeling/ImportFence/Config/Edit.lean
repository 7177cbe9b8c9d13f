import ImportFence.Config.Basic

/-!
# Editing constraints

Questions about and changes of the declared dependencies. Tags are compared without surrounding
white space; entries that are not touched keep their place and spelling.
-/

namespace ImportFence

namespace Constraint

def isFor (tag : String) (c : Constraint) : Bool :=
  Text.trim c.tag = Text.trim tag

def lists (tag : String) (tags : List String) : Bool :=
  tags.any fun t => Text.trim t = Text.trim tag

/-- A list of tags with further ones behind it, trimmed, each only if the list lacks it. -/
def extend (tags : List String) (further : List String) : List String :=
  further.foldl (fun ts t => if lists t ts then ts else ts ++ [Text.trim t]) tags

/-- Constraints in which the first one for a tag, or else a new one at the end, lists the given
dependencies. -/
def addAll (tag : String) (deps : List String) : List Constraint → List Constraint
  | [] => [⟨Text.trim tag, extend [] deps⟩]
  | c :: cs =>
    if c.isFor tag then ⟨c.tag, extend c.dependsOn deps⟩ :: cs else c :: addAll tag deps cs

/-- Constraints in which none for a tag lists a dependency. Entries stay even when they become
empty. -/
def remove (tag dep : String) (cs : List Constraint) : List Constraint :=
  cs.map fun c =>
    if c.isFor tag then ⟨c.tag, c.dependsOn.filter (Text.trim · ≠ Text.trim dep)⟩ else c

end Constraint

namespace Config

/-- The dependencies of a tag over all its constraints, trimmed, each once. -/
def dependenciesOf (c : Config) (tag : String) : List String :=
  ((c.constraints.filter (Constraint.isFor tag)).flatMap (·.dependsOn)).foldl
    (fun deps d => if Text.trim d ∈ deps then deps else deps ++ [Text.trim d]) []

/-- Adds dependencies to the first constraint for a tag, or to a new one. -/
def addDependencies (c : Config) (tag : String) (deps : List String) : Config :=
  { c with constraints := Constraint.addAll tag deps c.constraints }

/-- Removes a dependency from every constraint for a tag. -/
def removeDependency (c : Config) (tag dep : String) : Config :=
  { c with constraints := Constraint.remove tag dep c.constraints }

end Config

end ImportFence
