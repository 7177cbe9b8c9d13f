import ImportFence.Command.Error
import ImportFence.Config.Writer
import ImportFence.Path.Ancestors
import ImportFence.Source.Imports

/-!
# Settings of a run

Which configuration a run uses and which directory is its project: a configuration that was named,
the one in the requested directory, or the nearest one around it as the path is written, which then
makes its own directory the project.
-/

namespace ImportFence

/-- The file that holds the configuration of a project. -/
def configFileName : Path := ⟨"tagbound.toml"⟩

/-- Where a configuration comes from. -/
inductive ConfigSource where
  | named (path : Path)
  | project (path : Path)
  | ancestor (path : Path)
  | absent
  deriving DecidableEq, Inhabited

namespace ConfigSource

def path? : ConfigSource → Option Path
  | .named p => some p
  | .project p => some p
  | .ancestor p => some p
  | .absent => none

/-- The project's directory, when a directory was requested. -/
def projectRoot (requested : Path) : ConfigSource → Path
  | .ancestor p => p.parent?.getD requested
  | _ => requested

/-- Looks for the configuration of a requested directory. A named one need not exist. -/
def resolve (d : Disk) (requested : Path) : Option Path → ConfigSource
  | some p => .named p
  | none =>
    let own := requested.join configFileName
    if d.isFile own then .project own
    else
      let around := (d.absolute requested).ancestors.tail.map (·.join configFileName)
      match around.find? d.isFile with
      | some p => .ancestor p
      | none => .absent

end ConfigSource

/-- A project with its configuration and where that came from. -/
structure Workspace where
  root : Path
  config : Config
  source : ConfigSource
  deriving DecidableEq, Inhabited

namespace Config

def load (d : Disk) (path : Path) : Except ConfigError Config := do
  let text ← (d.readText path).mapError (.access path)
  parse text

def save (c : Config) (d : Disk) (path : Path) : Except ConfigError Disk :=
  (d.writeText path c.write).mapError (.access path)

end Config

namespace Workspace

def load (d : Disk) (requested : Path) (named : Option Path) : Except CommandError Workspace := do
  let source := ConfigSource.resolve d requested named
  let config ←
    match source.path? with
    | some path => (Config.load d path).mapError (.loadConfig path)
    | none => pure Config.default
  return { root := source.projectRoot requested, config, source }

/-- The file to which a changed configuration is written. -/
def target (w : Workspace) : Path :=
  w.source.path?.getD (w.root.join configFileName)

/-- The analysis of the workspace, with further patterns excluded. -/
def analysis (w : Workspace) (d : Disk) (exclude : List String) : Except CommandError Analysis :=
  let request : AnalysisRequest := {
    root := w.root
    config := w.config
    extractor := some Extractor.python
    excludes := exclude
    cancelled := false }
  (request.prepare d).mapError .prepare

end Workspace

end ImportFence
