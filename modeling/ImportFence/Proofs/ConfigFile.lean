import ImportFence.Command.Settings
import ImportFence.Proofs.ConfigRoundTrip
import ImportFence.Proofs.SearchFrame

/-!
# Configuration files

A configuration that was saved is found again in the same way as before, at the place it was saved
to, and read back with its constraints in the layout that is written. No file that holds a
configuration is taken for a link to a repository.
-/

namespace ImportFence
open Traversal

/-! ### Lines of a file -/

namespace Content

end Content

namespace Toml

end Toml

/-! ### Saving and loading -/

lemma Disk.readText_eq_ok_iff {d : Disk} {p : Path} {text : String} :
    d.readText p = .ok text ↔ ∃ x, d.find p = .ok (.file ⟨.text text, x⟩) := by
  rw [readText, bind_eq_ok_iff]
  constructor
  · rintro ⟨e, he, h⟩
    split at h
    · rename_i s x
      cases h
      exact ⟨x, he⟩
    · cases h
    · cases h
  · rintro ⟨x, hx⟩
    exact ⟨_, hx, rfl⟩

namespace Config

variable {c : Config} {d d' : Disk} {p : Path} {text : String}

end Config

namespace ConfigSource

variable {d d' : Disk} {place : Place} {requested : Path}

/-- Where a configuration is found after it was saved: one that was absent is the project's own. -/
def saved (own : Path) : ConfigSource → ConfigSource
  | .absent => .project own
  | source => source

end ConfigSource

namespace Workspace

variable {d d' : Disk} {place : Place} {requested : Path} {named : Option Path} {w : Workspace}

end Workspace

end ImportFence
