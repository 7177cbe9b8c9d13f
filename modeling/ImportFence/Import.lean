import ImportFence.Path.Basic

/-!
# Imports of a source file

What reading a source file yields, whatever the language: the imports with their positions, the
names of the public interface, or a syntax error.
-/

namespace ImportFence

/-- What an import binds: a module as a whole, or names out of it. -/
inductive ImportedNames where
  | wildcard
  | names (list : List String)
  deriving DecidableEq, Inhabited

/-- An import as it is written. Lines and columns count from 1, columns in bytes; `level` is the
number of leading dots. -/
structure Import where
  line : Nat
  column : Nat
  level : Nat
  module : String
  names : ImportedNames
  suppressed : Bool
  reason : Option String
  deriving DecidableEq, Inhabited

/-- Where and why a source does not parse. -/
structure ParseError where
  line : Nat
  column : Nat
  detail : String
  deriving DecidableEq, Inhabited

namespace ParseError

def message (e : ParseError) : String :=
  "syntax error at " ++ toString e.line ++ ":" ++ toString e.column ++ ": " ++ e.detail

end ParseError

/-- A source file of a project. -/
structure SourceFile where
  path : Path
  content : String
  deriving DecidableEq, Inhabited

/-- How sources of a language are read. -/
structure Extractor where
  /-- The extensions of the language's files, without the dot. -/
  extensions : List String
  /-- The file that stands for its directory. -/
  entryModule : String
  /-- The imports of a source, without those for type checkers if so asked. -/
  imports : Bool → String → Except ParseError (List Import)
  /-- The names of the public interface that a source declares, if it declares one. -/
  publicNames : String → Except ParseError (Option (List String))

namespace Extractor

/-- Whether a file is one of the language. -/
def handles (x : Extractor) (p : Path) : Bool :=
  p.extension?.any x.extensions.contains

end Extractor

end ImportFence
