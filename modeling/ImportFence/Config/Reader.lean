import ImportFence.Config.Basic
import ImportFence.Toml.Reader

/-!
# Reading configuration

Configurations of projects and packages from the entries of a TOML document. Types are strict and
unknown fields are refused at every level. Inside `constraints` a record may also be written as the
array of its fields in order.
-/

namespace ImportFence

namespace Toml

/-- Refuses entries with a key that is not among the known ones. -/
def onlyFields (known : List String) (entries : Entries) : Except Error Unit :=
  match entries.find? (fun (k, _) => !known.contains k) with
  | some (k, _) => .error (.unknownField k)
  | none => .ok ()

def asText (name : String) : Value → Except Error String
  | .text s => .ok s
  | _ => .error (.wrongType name "a string")

def asTexts (name : String) : Value → Except Error (List String)
  | .array items => items.mapM (asText name)
  | _ => .error (.wrongType name "an array of strings")

def asBoolean (name : String) : Value → Except Error Bool
  | .boolean b => .ok b
  | _ => .error (.wrongType name "a boolean")

/-- The value of a field, or a default if the field is absent. -/
def fieldOr {α : Type} (absent : α) (as : String → Value → Except Error α) (entries : Entries)
    (name : String) : Except Error α :=
  match entries.lookup name with
  | some v => as name v
  | none => .ok absent

def requiredField {α : Type} (as : String → Value → Except Error α) (entries : Entries)
    (name : String) : Except Error α :=
  match entries.lookup name with
  | some v => as name v
  | none => .error (.missingField name)

end Toml

namespace Constraint

def ofEntries (entries : Toml.Entries) : Except Toml.Error Constraint := do
  Toml.onlyFields ["tag", "depends_on"] entries
  let tag ← Toml.requiredField Toml.asText entries "tag"
  let dependsOn ← Toml.fieldOr [] Toml.asTexts entries "depends_on"
  return ⟨tag, dependsOn⟩

/-- A constraint from a table, or from an array of its fields. -/
def ofValue : Toml.Value → Except Toml.Error Constraint
  | .table _ entries => ofEntries entries
  | .array [tag] => return ⟨← Toml.asText "tag" tag, []⟩
  | .array [tag, deps] =>
    return ⟨← Toml.asText "tag" tag, ← Toml.asTexts "depends_on" deps⟩
  | .array [] => .error (.missingField "tag")
  | _ => .error (.wrongType "constraints" "a constraint")

/-- The dependencies that a tag's table declares, in the layout with one table per tag. -/
def dependenciesOfValue : Toml.Value → Except Toml.Error (List String)
  | .table _ entries => do
    Toml.onlyFields ["depends_on"] entries
    Toml.fieldOr [] Toml.asTexts entries "depends_on"
  | .array [] => .ok []
  | .array [deps] => Toml.asTexts "depends_on" deps
  | _ => .error (.wrongType "constraints" "a rule")

/-- The constraints of the layout with one table per tag, in ascending order of tags. -/
def ofTable (entries : Toml.Entries) : Except Toml.Error (List Constraint) :=
  (entries.mergeSort fun a b => decide (a.1 ≤ b.1)).mapM fun (tag, rule) => do
    return ⟨tag, ← dependenciesOfValue rule⟩

end Constraint

namespace Config

/-- The constraints of either layout, and whether it is the one with one table per tag. -/
def constraintsOfValue (_ : String) : Toml.Value → Except Toml.Error (List Constraint × Bool)
  | .array items => return (← items.mapM Constraint.ofValue, false)
  | .tables items => return (← items.mapM Constraint.ofEntries, false)
  | .table _ entries => return (← Constraint.ofTable entries, true)
  | _ => .error (.wrongType "constraints" "constraints")

/-- A configuration from the entries of a document. -/
def ofEntries (entries : Toml.Entries) : Except Toml.Error Config := do
  Toml.onlyFields ["source_roots", "exclude", "exclude_hidden_paths",
    "ignore_type_checking_imports", "constraints"] entries
  let sourceRoots ← Toml.fieldOr ["."] Toml.asTexts entries "source_roots"
  let exclude ← Toml.fieldOr default.exclude Toml.asTexts entries "exclude"
  let excludeHidden ← Toml.fieldOr true Toml.asBoolean entries "exclude_hidden_paths"
  let ignoreTypeChecking ←
    Toml.fieldOr false Toml.asBoolean entries "ignore_type_checking_imports"
  let (constraints, legacyLayout) ←
    Toml.fieldOr ([], false) constraintsOfValue entries "constraints"
  return {
    sourceRoots := sourceRoots.map Path.mk
    exclude, excludeHidden, ignoreTypeChecking, constraints, legacyLayout }

def parse (text : String) : Except ConfigError Config :=
  (Toml.parse text >>= ofEntries).mapError (.parse none)

end Config

namespace PackageConfig

/-- A package's configuration from the entries of a document. -/
def ofEntries (entries : Toml.Entries) : Except Toml.Error PackageConfig := do
  Toml.onlyFields ["tags", "strict"] entries
  let tags ← Toml.requiredField Toml.asTexts entries "tags"
  let strict ← Toml.fieldOr false Toml.asBoolean entries "strict"
  return ⟨tags, strict⟩

/-- Reads the configuration of a package, from a named file if it is one. -/
def parse (text : String) (file : Option Path) : Except ConfigError PackageConfig :=
  (Toml.parse text >>= ofEntries).mapError (.parse file)

end PackageConfig

end ImportFence
