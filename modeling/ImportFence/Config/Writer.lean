import ImportFence.Config.Basic
import ImportFence.Text.Split
import ImportFence.Toml.Quoted

/-!
# Writing configuration

A project's configuration as a TOML document: every field on its own, then one table per
constraint. Arrays of more than one item are written with an item per line.
-/

namespace ImportFence

namespace Toml

def writeTexts : List String → List Char
  | [] => ['[', ']']
  | [s] => '[' :: (Quoted.write s.toList ++ [']'])
  | items =>
    "[\n".toList ++
      items.flatMap (fun s => "    ".toList ++ Quoted.write s.toList ++ ",\n".toList) ++ [']']

def writeBoolean (b : Bool) : List Char :=
  if b then "true".toList else "false".toList

def writePair (key : String) (value : List Char) : List Char :=
  key.toList ++ " = ".toList ++ value ++ ['\n']

end Toml

def Constraint.write (c : Constraint) : List Char :=
  "\n[[constraints]]\n".toList ++
    Toml.writePair "tag" (Toml.Quoted.write c.tag.toList) ++
    Toml.writePair "depends_on" (Toml.writeTexts c.dependsOn)

namespace Config

/-- The constraints of a configuration, behind its other fields. -/
def writeConstraints (cs : List Constraint) : List Char :=
  if cs.isEmpty then Toml.writePair "constraints" ['[', ']'] else cs.flatMap Constraint.write

def writeChars (c : Config) : List Char :=
  Toml.writePair "source_roots" (Toml.writeTexts (c.sourceRoots.map (·.text))) ++
    Toml.writePair "exclude" (Toml.writeTexts c.exclude) ++
    Toml.writePair "exclude_hidden_paths" (Toml.writeBoolean c.excludeHidden) ++
    Toml.writePair "ignore_type_checking_imports" (Toml.writeBoolean c.ignoreTypeChecking) ++
    writeConstraints c.constraints

def write (c : Config) : String :=
  String.ofList c.writeChars

end Config

end ImportFence
