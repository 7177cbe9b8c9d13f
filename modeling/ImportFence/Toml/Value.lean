/-!
# TOML values

The values of a TOML document. Numbers and dates are kept as written: no setting of this tool has
one, so their own grammar is not examined.
-/

namespace ImportFence.Toml

/-- How a table came to be, which decides what may be added to it. -/
inductive Origin where
  | header
  | path
  | dotted
  | inline
  deriving DecidableEq, Inhabited

/-- A TOML value. `tables` is a list of tables built by double-bracket headers. -/
inductive Value where
  | text (s : String)
  | boolean (b : Bool)
  | bare (written : String)
  | array (items : List Value)
  | tables (items : List (List (String × Value)))
  | table (origin : Origin) (entries : List (String × Value))
  deriving Inhabited

/-- The entries of a table, in the order in which they were added. -/
abbrev Entries := List (String × Value)

/-- Why a text is no TOML document of the expected shape. -/
inductive Error where
  | malformed (line : Nat)
  | duplicateKey (key : String)
  | notATable (key : String)
  | unknownField (name : String)
  | missingField (name : String)
  | wrongType (name expected : String)
  deriving DecidableEq, Inhabited

namespace Error

def message : Error → String
  | .malformed line => "TOML parse error at line " ++ toString line
  | .duplicateKey key => "duplicate key '" ++ key ++ "'"
  | .notATable key => "key '" ++ key ++ "' is not a table"
  | .unknownField name => "unknown field '" ++ name ++ "'"
  | .missingField name => "missing field '" ++ name ++ "'"
  | .wrongType name expected => "invalid type for '" ++ name ++ "', expected " ++ expected

end Error

end ImportFence.Toml
