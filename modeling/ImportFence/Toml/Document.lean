import ImportFence.Toml.Value

/-!
# Assembling a TOML document

A document is a sequence of statements: pairs of key and value, and headers that say to which table
the following pairs belong. A table may be written once; what a dotted key or a header only passed
through may be added to later, what was written in braces may not.
-/

namespace ImportFence.Toml

/-- One statement of a document. Paths are given without their last key. -/
inductive Statement where
  | pair (path : List String) (key : String) (value : Value)
  | header (path : List String) (key : String)
  | listHeader (path : List String) (key : String)
  deriving Inhabited

namespace Entries

def replace (key : String) (value : Value) (entries : Entries) : Entries :=
  entries.map fun (k, v) => if k = key then (k, value) else (k, v)

/-- Changes the table at the end of a path. Tables that the path lacks are made, marked `dotted` if
the path is a dotted key; a dotted key may not enter a table that has a header of its own. -/
def alter (dotted : Bool) (change : Origin → Entries → Except Error Entries) (origin : Origin)
    (entries : Entries) : List String → Except Error Entries
  | [] => change origin entries
  | key :: path =>
    match entries.lookup key with
    | none => do
      let made := if dotted then Origin.dotted else Origin.path
      return entries ++ [(key, .table made (← alter dotted change made [] path))]
    | some (.tables items) => do
      let last ← alter dotted change .header (items.getLast?.getD []) path
      return replace key (.tables (items.dropLast ++ [last])) entries
    | some (.table .inline _) => .error (.notATable key)
    | some (.table made inner) =>
      if dotted && made = .header then .error (.duplicateKey key)
      else do
        return replace key (.table made (← alter dotted change made inner path)) entries
    | some _ => .error (.notATable key)

/-- Adds a value under a dotted key. The table that gets it is the one at hand or one that dotted
keys have made. -/
def put (path : List String) (key : String) (value : Value) (origin : Origin) (entries : Entries) :
    Except Error Entries :=
  alter true (fun made inner =>
    if path ≠ [] && made ≠ .dotted then .error (.duplicateKey key)
    else if (inner.lookup key).isSome then .error (.duplicateKey key)
    else .ok (inner ++ [(key, value)])) origin entries path

def openTable (key : String) (entries : Entries) : Except Error Entries :=
  match entries.lookup key with
  | none => .ok (entries ++ [(key, .table .header [])])
  | some (.table .path inner) => .ok (replace key (.table .header inner) entries)
  | some _ => .error (.duplicateKey key)

/-- Opens a further table of a double-bracket header. -/
def openListTable (key : String) (entries : Entries) : Except Error Entries :=
  match entries.lookup key with
  | none => .ok (entries ++ [(key, .tables [[]])])
  | some (.tables items) => .ok (replace key (.tables (items ++ [[]])) entries)
  | some _ => .error (.duplicateKey key)

end Entries

/-- A document under construction: its entries, and the path of the table that pairs go to. -/
structure Draft where
  entries : Entries
  current : List String

namespace Draft

/-- The document without statements. -/
def empty : Draft := ⟨[], []⟩

def add (d : Draft) : Statement → Except Error Draft
  | .pair path key value => do
    let entries ← Entries.alter false (Entries.put path key value) .header d.entries d.current
    return { d with entries }
  | .header path key => do
    let entries ← Entries.alter false (fun _ => Entries.openTable key) .header d.entries path
    return ⟨entries, path ++ [key]⟩
  | .listHeader path key => do
    let entries ← Entries.alter false (fun _ => Entries.openListTable key) .header d.entries path
    return ⟨entries, path ++ [key]⟩

end Draft

/-- The entries of the document that the statements make up. -/
def assemble (statements : List Statement) : Except Error Entries :=
  return (← statements.foldlM Draft.add Draft.empty).entries

def inlineEntries (pairs : List (List String × String × Value)) : Except Error Entries :=
  pairs.foldlM (fun entries (path, key, value) => Entries.put path key value .inline entries) []

end ImportFence.Toml
