import ImportFence.Command.Hook
import ImportFence.Command.Output
import ImportFence.Command.Settings

/-!
# Running commands

What a command prints, what it leaves on disk and how it ends: 0 when all is well, 1 when a check
finds something, 2 when the command fails.
-/

namespace ImportFence

/-- How a command ends. -/
structure Outcome where
  exit : Nat
  stdout : String
  error : Option CommandError
  disk : Disk
  deriving DecidableEq, Inhabited

namespace Outcome

def done (d : Disk) (lines : List String) : Outcome :=
  ⟨0, Text.join "" (lines.map (· ++ "\n")), none, d⟩

def failed (d : Disk) (lines : List String) (e : CommandError) : Outcome :=
  ⟨2, Text.join "" (lines.map (· ++ "\n")), some e, d⟩

end Outcome

namespace Command

/-- The configuration that a new project starts with. -/
def initialConfig : String :=
  Text.join "" ([
    "# tagbound configuration",
    "#",
    "# Packages are declared by a package.toml in their root directory:",
    "#",
    "#     tags = [\"core\"]",
    "#     strict = false   # true: importers may only use names in __all__",
    "",
    "# Directories module paths are computed from",
    "source_roots = [\".\"]",
    "",
    "# Glob patterns to exclude, matched against paths and path components",
    "exclude = [\"tests\", \"docs\"]",
    "",
    "# Skip files and directories starting with \".\"",
    "exclude_hidden_paths = true",
    "",
    "# Skip imports inside `if TYPE_CHECKING:` blocks",
    "ignore_type_checking_imports = false",
    "",
    "# Packages tagged `tag` may import packages tagged with any of `depends_on`.",
    "# Run `tagbound sync` to fill these in from the current imports.",
    "",
    "# [[constraints]]",
    "# tag = \"core\"",
    "# depends_on = [\"db\", \"utils\"]"].map (· ++ "\n"))

/-- What is to be done after a configuration was created. -/
def nextSteps : List String :=
  ["Created " ++ configFileName.text,
    "",
    "Next steps:",
    "  1. Add a package.toml with tags to each package directory",
    "  2. Run: tagbound sync",
    "  3. Run: tagbound check"]

def runCheck (d : Disk) (named : Option Path) (path : Path) (format : Format)
    (exclude : List String) : Except CommandError Outcome := do
  let workspace ← Workspace.load d path named
  let analysis ← workspace.analysis d exclude
  let result ← (analysis.check d).mapError .check
  return ⟨if result.isClean then 0 else 1, result.output format, none, d⟩

/-- Brings the configuration in line with the imports. It is written when there is something to
change, or when it is in the layout that is no longer written. -/
def runSync (d : Disk) (named : Option Path) (path : Path) (prune dryRun : Bool) :
    Except CommandError Outcome := do
  let workspace ← Workspace.load d path named
  let analysis ← workspace.analysis d []
  let patch ← (analysis.sync d prune).mapError .sync
  if patch.isEmpty && !workspace.config.legacyLayout then
    return .done d (patch.lines ++ ["Constraints already match the imports."])
  if dryRun then return .done d (patch.lines ++ ["Dry run: config not written."])
  match (patch.apply workspace.config).save d workspace.target with
  | .error e => return .failed d patch.lines (.saveConfig workspace.target e)
  | .ok saved =>
    return .done saved (patch.lines ++
      ["Updated " ++ workspace.target.text ++ ": " ++ toString patch.additions.length ++
        " added, " ++ toString patch.prunes.length ++ " removed"])

/-- Prints a report on a package. Asking for neither section asks for both. -/
def runReport (d : Disk) (named : Option Path) (package path : Path)
    (dependencies usages raw : Bool) : Except CommandError Outcome := do
  let workspace ← Workspace.load d path named
  let analysis ← workspace.analysis d []
  let sections : Sections := ⟨dependencies || !usages, usages || !dependencies⟩
  let report ← (analysis.report d package sections).mapError (.report package)
  return ⟨0, if raw then report.raw ++ "\n" else report.text, none, d⟩

/-- Creates a configuration in the current directory. -/
def runInit (d : Disk) (force : Bool) : Except CommandError Outcome := do
  if d.has configFileName && !force then throw (.configExists configFileName)
  let d ← (d.writeText configFileName initialConfig).mapError (.writeFile configFileName)
  return .done d nextSteps

def runInstall (d : Disk) (path : Path) (force : Bool) : Except CommandError Outcome := do
  let (hook, d) ← Hook.install d path force
  return .done d ["Installed pre-commit hook at " ++ hook.text]

def run (d : Disk) (named : Option Path) : Command → Except CommandError Outcome
  | .check path format exclude => runCheck d named path format exclude
  | .sync path prune dryRun => runSync d named path prune dryRun
  | .report package path dependencies usages raw =>
    runReport d named package path dependencies usages raw
  | .init force => runInit d force
  | .installPreCommit path force => runInstall d path force

end Command

def versionLine : String := "tagbound 0.3.0"

def helpLines : List String :=
  ["Tag-based import boundary checker for Python projects",
    "",
    "Usage: tagbound [-v] [-c CONFIG] COMMAND",
    "",
    "  check [-f text|json|compact] [-e PATTERN]... [PATH]",
    "  sync [--prune] [--dry-run] [PATH]",
    "  report [--dependencies] [--usages] [--raw] PACKAGE [PATH]",
    "  init [--force]",
    "  install pre-commit [--force] [PATH]"]

def Outcome.ofWords (d : Disk) (words : List String) : Outcome :=
  match Invocation.parse words with
  | .error .usage => .failed d [] .usage
  | .error .version => .done d [versionLine]
  | .error .help => .done d helpLines
  | .ok invocation =>
    match invocation.command.run d invocation.config with
    | .ok outcome => outcome
    | .error e => .failed d [] e

end ImportFence
