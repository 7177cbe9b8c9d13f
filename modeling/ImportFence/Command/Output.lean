import ImportFence.Command.Arguments
import ImportFence.Command.Json

/-!
# Findings as output

The three forms in which the findings of a check are written: a coloured text for readers, one line
per finding, and JSON.
-/

namespace ImportFence

/-- The colours of the readable text. -/
inductive Colour where
  | red
  | green
  | yellow
  deriving DecidableEq, Inhabited

namespace Colour

/-- The sequence that switches a terminal to the colour. -/
def code : Colour → String
  | .red => "\x1b[31m"
  | .green => "\x1b[32m"
  | .yellow => "\x1b[33m"

def paint (c : Colour) (text : String) : String :=
  c.code ++ text ++ "\x1b[0m"

end Colour

namespace CheckResult

/-- The colour of the last line: red for violations, yellow for warnings only. -/
def colour (r : CheckResult) : Colour :=
  if !r.violations.isEmpty then .red else if !r.warnings.isEmpty then .yellow else .green

/-- The last line, which counts the files that were left out too. -/
def fullSummary (r : CheckResult) : String :=
  "Found " ++ toString r.counts.1 ++ " undeclared dependency(ies), " ++ toString r.counts.2 ++
    " strict interface violation(s), " ++ toString r.warnings.length ++ " unparsable file(s) in " ++
    toString r.filesChecked ++ " file(s)"

def readable (r : CheckResult) : String :=
  let violations := r.violations.flatMap fun v =>
    [v.kind.code ++ " " ++ v.kind.name ++ " at " ++ v.location.text,
      "  " ++ Colour.red.paint "error" ++ ": " ++ v.message, ""]
  let warnings := r.warnings.map fun w =>
    w.file.text ++ ": " ++ Colour.yellow.paint "warning" ++ ": skipped, " ++ w.message
  let lines :=
    violations ++ warnings ++ (if r.warnings.isEmpty then [] else [""]) ++
      (if r.noFirstPartyImports then
        [Colour.yellow.paint "warning" ++ ": " ++ noFirstPartyNotice, ""] else []) ++
      [r.colour.paint r.fullSummary]
  Text.join "" (lines.map (· ++ "\n"))

def compact (r : CheckResult) : String :=
  let lines :=
    r.violations.map (·.text) ++
      r.warnings.map (fun w => w.file.text ++ ": warning " ++ w.message) ++
      (if r.noFirstPartyImports then ["warning: " ++ noFirstPartyNotice] else [])
  Text.join "" (lines.map (· ++ "\n"))

def output (r : CheckResult) : Format → String
  | .text => r.readable
  | .json => r.toJson.render ++ "\n"
  | .compact => r.compact

end CheckResult

end ImportFence
