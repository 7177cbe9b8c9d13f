import ImportFence.Glob
import ImportFence.Tag
import ImportFence.Toml.Value

/-!
# Configuration

What a project declares about itself: where its modules live, what is left out of the analysis, and
which tags may depend on which. Errors of configuration end a run before any source is read.
-/

namespace ImportFence

/-- Packages with the tag may depend on packages with any of the listed tags. -/
structure Constraint where
  tag : String
  dependsOn : List String
  deriving DecidableEq, Inhabited

/-- The configuration of a project. -/
structure Config where
  sourceRoots : List Path
  exclude : List String
  excludeHidden : Bool
  ignoreTypeChecking : Bool
  constraints : List Constraint
  /-- The constraints were read from one table per tag, the layout that is no longer written. -/
  legacyLayout : Bool
  deriving DecidableEq, Inhabited

/-- What a package declares about itself. -/
structure PackageConfig where
  tags : List String
  strict : Bool
  deriving DecidableEq, Inhabited

/-- A place at which a tag is written. -/
inductive TagPlace where
  | constraintTag (index : Nat)
  | dependency (index position : Nat)
  | packageTag (package : String) (position : Nat)
  deriving DecidableEq, Inhabited

namespace TagPlace

def text : TagPlace → String
  | .constraintTag i => "constraints[" ++ toString i ++ "].tag"
  | .dependency i j => "constraints[" ++ toString i ++ "].depends_on[" ++ toString j ++ "]"
  | .packageTag package i => "package '" ++ package ++ "' tags[" ++ toString i ++ "]"

end TagPlace

/-- Why a file or directory could not be used. -/
inductive AccessError where
  | notFound
  | isDirectory
  | notDirectory
  | invalidText
  | exists
  deriving DecidableEq, Inhabited

namespace AccessError

def message : AccessError → String
  | .notFound => "No such file or directory (os error 2)"
  | .isDirectory => "Is a directory (os error 21)"
  | .notDirectory => "Not a directory (os error 20)"
  | .invalidText => "stream did not contain valid UTF-8"
  | .exists => "File exists (os error 17)"

end AccessError

/-- Why a configuration is refused. -/
inductive ConfigError where
  | access (path : Path) (cause : AccessError)
  | parse (file : Option Path) (cause : Toml.Error)
  | noSourceRoots
  | invalidGlob (pattern : String) (reason : Glob.Error)
  | missingTags (package : String)
  | blankTag (place : TagPlace)
  | duplicateRoot (path : String)
  | unknownTag (tag : String) (place : TagPlace)
  | outsideSourceRoots (package : String)
  | strictWithoutInterface (package : String)
  deriving DecidableEq, Inhabited

namespace ConfigError

def message : ConfigError → String
  | .access path cause => "failed to access " ++ path.text ++ ": " ++ cause.message
  | .parse none cause => "invalid config: " ++ cause.message
  | .parse (some file) cause => "invalid config: " ++ file.text ++ ": " ++ cause.message
  | .noSourceRoots => "source_roots must list at least one directory"
  | .invalidGlob pattern reason =>
    "invalid exclude pattern `" ++ pattern ++ "`: " ++ reason.message
  | .missingTags package => "package '" ++ package ++ "' declares no tags"
  | .blankTag place => place.text ++ ": " ++ TagError.message .blank
  | .duplicateRoot path => "package root '" ++ path ++ "' is declared more than once"
  | .unknownTag tag place => place.text ++ ": unknown tag '" ++ tag ++ "'"
  | .outsideSourceRoots package =>
    "package '" ++ package ++ "' is not inside any source root"
  | .strictWithoutInterface package =>
    "package '" ++ package ++ "' is strict but its entry module declares no public interface"

end ConfigError

namespace Config

/-- The configuration of a project that declares nothing. -/
def default : Config where
  sourceRoots := [⟨"."⟩]
  exclude := ["tests", "docs"]
  excludeHidden := true
  ignoreTypeChecking := false
  constraints := []
  legacyLayout := false

def excludePatterns (c : Config) : Except ConfigError (List Glob) :=
  c.exclude.mapM fun pattern => (Glob.parse pattern).mapError (.invalidGlob pattern)

/-- The first blank tag of constraints that start at an index. -/
def blankTag? : Nat → List Constraint → Option TagPlace
  | _, [] => none
  | i, c :: cs =>
    if Text.trim c.tag = "" then some (.constraintTag i)
    else
      match c.dependsOn.findIdx? (Text.trim · = "") with
      | some j => some (.dependency i j)
      | none => blankTag? (i + 1) cs

/-- Checks what does not depend on the packages of the project; the first problem counts. -/
def validate (c : Config) : Except ConfigError Unit := do
  if c.sourceRoots.isEmpty then throw .noSourceRoots
  let _ ← c.excludePatterns
  match blankTag? 0 c.constraints with
  | some place => throw (.blankTag place)
  | none => return ()

end Config

end ImportFence
