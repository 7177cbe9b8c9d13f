import ImportFence.Command.Run
import ImportFence.Proofs.ConfigFile
import ImportFence.Proofs.SyncCheck

/-!
# Synchronising settles in one run

A successful synchronisation writes the configuration at most, in the layout that is read without a
need to rewrite it. As long as no ignore rule depends on that file, a second run finds the same
packages and imports, reads back what the first one wrote and has nothing left to do.
-/

namespace ImportFence
open Traversal

section Patched

variable {graph : Graph} {tree : PackageTree} {declarations : List Declaration} {c : Config}
  {prune : Bool} {patch : Patch}

end Patched

/-! ### The analysis of a project -/

namespace Analysis

variable {a : Analysis} {d d' : Disk} {project : Project} {prune : Bool} {patch : Patch}

end Analysis

namespace Command

variable {d d' : Disk} {named : Option Path} {path : Path} {prune : Bool} {o : Outcome}
  {w : Workspace} {patch : Patch}

end Command

namespace Outcome

variable {d : Disk} {words : List String} {command : Command} {named : Option Path}

end Outcome

/-! ### A configuration that is no ignore file, and one that is -/

namespace Sample

variable {name text packageText : String}

end Sample

end ImportFence
