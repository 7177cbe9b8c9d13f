import ImportFence.Analysis

/-!
# Failures of commands

Why a command fails, told from the outside in: what was to be done, and then each cause. An error
that quotes its cause is followed by that cause nevertheless.
-/

namespace ImportFence

def ConfigError.causes (e : ConfigError) : List String :=
  match e with
  | .access _ cause => [e.message, cause.message]
  | _ => [e.message]

def AnalysisError.causes (e : AnalysisError) : List String :=
  match e with
  | .config cause => e.message :: cause.causes
  | .rootNotDirectory _ => [e.message, "not a directory"]
  | _ => [e.message]

/-- Why a command fails. -/
inductive CommandError where
  | usage
  | loadConfig (path : Path) (cause : ConfigError)
  | saveConfig (path : Path) (cause : ConfigError)
  | prepare (cause : AnalysisError)
  | check (cause : AnalysisError)
  | sync (cause : AnalysisError)
  | report (package : Path) (cause : AnalysisError)
  | configExists (path : Path)
  | writeFile (path : Path) (cause : AccessError)
  | createDirectory (path : Path) (cause : AccessError)
  | makeExecutable (path : Path) (cause : AccessError)
  | noRepository (path : Path)
  | hookExists (path : Path)
  deriving DecidableEq, Inhabited

namespace CommandError

/-- What was to be done, and the causes of its failure. -/
def causes : CommandError → List String
  | .usage => ["unknown command line, see --help"]
  | .loadConfig path cause => ("Failed to load config: " ++ path.text) :: cause.causes
  | .saveConfig path cause => ("Failed to write " ++ path.text) :: cause.causes
  | .prepare cause => "Failed to build analyzer" :: cause.causes
  | .check cause => "Check failed" :: cause.causes
  | .sync cause => "Sync failed" :: cause.causes
  | .report package cause => ("Failed to report on " ++ package.text) :: cause.causes
  | .configExists path =>
    ["Configuration file already exists at " ++ path.text ++ ". Use --force to overwrite."]
  | .writeFile path cause => ["Failed to write " ++ path.text, cause.message]
  | .createDirectory path cause => ["Failed to create " ++ path.text, cause.message]
  | .makeExecutable path cause =>
    ["Failed to make " ++ path.text ++ " executable", cause.message]
  | .noRepository path => [path.text ++ " is not inside a git repository"]
  | .hookExists path =>
    ["A pre-commit hook already exists at " ++ path.text ++ ". Use --force to overwrite."]

/-- The failure on one line. -/
def message (e : CommandError) : String :=
  "error: " ++ Text.join ": " e.causes

end CommandError

end ImportFence
