import ImportFence.Command.Error
import ImportFence.Path.Ancestors

/-!
# The commit hook

A script in the repository around a project that checks the project before every commit. It is run
from the repository's root and so names the project by its path from there.
-/

namespace ImportFence.Hook

/-- What stands before the command of the script. -/
def header : String :=
  "#!/bin/sh\n# Pre-commit script that validates dependencies locally\nset -e\n\n"

/-- The script that checks the project at a path below the repository's root. -/
def script (project : Path) : String :=
  let argument := if project.text = "" then "" else " " ++ project.packageName
  header ++ "tagbound check" ++ argument ++ "\n"

/-- The nearest repository around a directory, as its path is written. -/
def repository? (d : Disk) (dir : Path) : Option Path :=
  dir.ancestors.find? fun p => d.isDirectory (p.join ⟨".git"⟩)

/-- The way from a repository's root to a project below it. -/
def relative (repository project : Path) : Path :=
  match Path.below? repository.components project.components with
  | some rest => Path.ofComponents (rest.filter (· ≠ .current))
  | none => ⟨""⟩

/-- Installs the hook for a project, and gives the path of the script and the disk with it. -/
def install (d : Disk) (path : Path) (force : Bool) : Except CommandError (Path × Disk) := do
  let project := d.absolute path
  let some repository := repository? d project | throw (.noRepository path)
  let hooks := (repository.join ⟨".git"⟩).join ⟨"hooks"⟩
  let hook := hooks.join ⟨"pre-commit"⟩
  if d.has hook && !force then throw (.hookExists hook)
  let d ← (d.makeDirectory hooks).mapError (.createDirectory hooks)
  let d ← (d.writeText hook (script (relative repository project))).mapError (.writeFile hook)
  let d ← (d.setExecutable hook).mapError (.makeExecutable hook)
  return (hook, d)

end ImportFence.Hook
