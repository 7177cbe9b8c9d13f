import ImportFence.Path.Basic

/-!
# Command line

What the words of a command line ask for. Options may stand anywhere behind their command, a value
follows its option or is attached to it, and `--` ends the options. Options that every command
knows may also stand before the command; the value given last, by the command, counts.
-/

namespace ImportFence

/-- How the findings of a check are written. -/
inductive Format where
  | text
  | json
  | compact
  deriving DecidableEq, Inhabited

def Format.ofName? (name : String) : Option Format :=
  if name = "text" then some .text
  else if name = "json" then some .json
  else if name = "compact" then some .compact
  else none

/-- What is to be done. -/
inductive Command where
  | check (path : Path) (format : Format) (exclude : List String)
  | sync (path : Path) (prune dryRun : Bool)
  | report (package path : Path) (dependencies usages raw : Bool)
  | init (force : Bool)
  | installPreCommit (path : Path) (force : Bool)
  deriving DecidableEq, Inhabited

/-- A command with the configuration file that was named for it. -/
structure Invocation where
  command : Command
  config : Option Path
  deriving DecidableEq, Inhabited

namespace Arguments

/-- Why no command is run. -/
inductive Stop where
  | usage
  | help
  | version
  deriving DecidableEq, Inhabited

/-- What an option does. -/
inductive Role where
  | flag
  | value (accepts : String → Bool) (repeatable : Bool)
  | stop (reason : Stop)

/-- An option with its long and its one-letter name. -/
structure OptionRule where
  name : String
  short : Option Char
  role : Role

/-- A word that is no option. -/
structure OperandRule where
  accepts : String → Bool
  required : Bool

/-- The words that are understood at one level of the command line. -/
structure Grammar where
  options : List OptionRule
  operands : List OperandRule
  commands : List String

/-- The options and operands that were given. -/
structure Matches where
  options : List (String × String)
  operands : List String
  deriving DecidableEq, Inhabited

namespace Matches

def empty : Matches := ⟨[], []⟩

def has (m : Matches) (name : String) : Bool :=
  (m.options.lookup name).isSome

def value? (m : Matches) (name : String) : Option String :=
  m.options.lookup name

def values (m : Matches) (name : String) : List String :=
  (m.options.filter (·.1 = name)).map (·.2)

/-- One more value of an option. An option that is not repeatable is given at most once. -/
def record (m : Matches) (o : OptionRule) (value : String) : Except Stop Matches :=
  let next := { m with options := m.options ++ [(o.name, value)] }
  match o.role with
  | .stop reason => .error reason
  | .flag => if m.has o.name then .error .usage else .ok next
  | .value accepts repeatable =>
    if !accepts value || (m.has o.name && !repeatable) then .error .usage else .ok next

end Matches

/-- How far a command line is read: what was given, the option that waits for its value, and
whether options have ended. -/
structure Scan where
  given : Matches
  pending : Option OptionRule
  literal : Bool

namespace Grammar

/-- Reads an option's long name, with the value that is attached to it by an equals sign. -/
def readLong (g : Grammar) (m : Matches) (word : List Char) :
    Except Stop (Matches × Option OptionRule) :=
  let name := String.ofList (word.takeWhile (· ≠ '='))
  let attached := word.dropWhile (· ≠ '=')
  match g.options.find? (·.name = name) with
  | none => .error .usage
  | some o =>
    match o.role, attached with
    | .value _ _, _ :: value => (m.record o (String.ofList value)).map (·, none)
    | .value _ _, [] => .ok (m, some o)
    | _, [] => (m.record o "").map (·, none)
    | _, _ :: _ => .error .usage

/-- Reads a cluster of one-letter names. What follows the name of an option with a value is its
value. -/
def readShort (g : Grammar) (m : Matches) : List Char → Except Stop (Matches × Option OptionRule)
  | [] => .ok (m, none)
  | c :: rest =>
    match g.options.find? (·.short = some c) with
    | none => .error .usage
    | some o =>
      match o.role, rest with
      | .value _ _, [] => .ok (m, some o)
      | .value _ _, '=' :: value => (m.record o (String.ofList value)).map (·, none)
      | .value _ _, value => (m.record o (String.ofList value)).map (·, none)
      | _, _ => do g.readShort (← m.record o "") rest

def readOperand (g : Grammar) (m : Matches) (word : String) : Except Stop Matches :=
  match g.operands[m.operands.length]? with
  | none => .error .usage
  | some rule =>
    if rule.accepts word then .ok { m with operands := m.operands ++ [word] } else .error .usage

/-- Reads one word. A word that starts with a dash is never the value of the option before it. -/
def readWord (g : Grammar) (s : Scan) (word : String) : Except Stop Scan :=
  match s.pending, s.literal, word.toList with
  | some _, _, '-' :: _ :: _ => .error .usage
  | some o, _, _ => do return { s with given := ← s.given.record o word, pending := none }
  | none, false, ['-', '-'] => .ok { s with literal := true }
  | none, false, '-' :: '-' :: rest => do
    let (given, pending) ← g.readLong s.given rest
    return { s with given, pending }
  | none, false, '-' :: c :: rest => do
    let (given, pending) ← g.readShort s.given (c :: rest)
    return { s with given, pending }
  | none, _, _ => do return { s with given := ← g.readOperand s.given word }

/-- Reads words up to the first that names a command, and gives that name with the words behind
it. -/
def readWords (g : Grammar) : Scan → List String →
    Except Stop (Matches × Option (String × List String))
  | s, [] => if s.pending.isSome then .error .usage else .ok (s.given, none)
  | s, word :: words =>
    if s.pending.isNone && !s.literal && g.commands.contains word then
      .ok (s.given, some (word, words))
    else do g.readWords (← g.readWord s word) words

def read (g : Grammar) (words : List String) :
    Except Stop (Matches × Option (String × List String)) := do
  let (m, command) ← g.readWords ⟨Matches.empty, none, false⟩ words
  if m.operands.length < (g.operands.filter (·.required)).length then throw .usage
  return (m, command)

end Grammar

def isPath (text : String) : Bool :=
  text ≠ ""

def globalOptions : List OptionRule :=
  [⟨"help", some 'h', .stop .help⟩,
    ⟨"verbose", some 'v', .flag⟩,
    ⟨"config", some 'c', .value isPath false⟩]

def commandNames : List String :=
  ["check", "sync", "report", "init", "install", "help"]

/-- The words before the command. -/
def topGrammar : Grammar where
  options := ⟨"version", some 'V', .stop .version⟩ :: globalOptions
  operands := []
  commands := commandNames

def grammarOf (options : List OptionRule) (operands : List OperandRule) : Grammar where
  options := options ++ globalOptions
  operands := operands
  commands := []

def projectOperand : OperandRule := ⟨isPath, false⟩

/-- The words of `check`. -/
def checkGrammar : Grammar :=
  grammarOf
    [⟨"format", some 'f', .value (fun name => (Format.ofName? name).isSome) false⟩,
      ⟨"exclude", some 'e', .value (fun _ => true) true⟩]
    [projectOperand]

/-- The words of `sync`. -/
def syncGrammar : Grammar :=
  grammarOf [⟨"prune", none, .flag⟩, ⟨"dry-run", none, .flag⟩] [projectOperand]

/-- The words of `report`. -/
def reportGrammar : Grammar :=
  grammarOf
    [⟨"dependencies", none, .flag⟩, ⟨"usages", none, .flag⟩, ⟨"raw", none, .flag⟩]
    [⟨isPath, true⟩, projectOperand]

/-- The words of `init`. -/
def initGrammar : Grammar :=
  grammarOf [⟨"force", none, .flag⟩] []

/-- The words of `install`. -/
def installGrammar : Grammar :=
  grammarOf [⟨"force", none, .flag⟩] [⟨(· = "pre-commit"), true⟩, projectOperand]

/-- The operand at a position, or the current directory. -/
def Matches.pathAt (m : Matches) (i : Nat) : Path :=
  ⟨m.operands.getD i "."⟩

/-- The words of a command, by its name, and what they ask for. -/
def interpretation? : String → Option (Grammar × (Matches → Command))
  | "check" => some (checkGrammar, fun m =>
      .check (m.pathAt 0) (((m.value? "format").bind Format.ofName?).getD .text)
        (m.values "exclude"))
  | "sync" => some (syncGrammar, fun m => .sync (m.pathAt 0) (m.has "prune") (m.has "dry-run"))
  | "report" => some (reportGrammar, fun m =>
      .report (m.pathAt 0) (m.pathAt 1) (m.has "dependencies") (m.has "usages") (m.has "raw"))
  | "init" => some (initGrammar, fun m => .init (m.has "force"))
  | "install" => some (installGrammar, fun m => .installPreCommit (m.pathAt 1) (m.has "force"))
  | _ => none

/-- Why the command that explains the others stops. -/
def helpStop : List String → Stop
  | [] => .help
  | [name] => if commandNames.contains name then .help else .usage
  | _ => .usage

end Arguments

def Invocation.parse (words : List String) : Except Arguments.Stop Invocation := do
  let (before, command) ← Arguments.topGrammar.read words
  let some (name, rest) := command | throw .usage
  match Arguments.interpretation? name with
  | none => throw (Arguments.helpStop rest)
  | some (grammar, build) =>
    let (given, _) ← grammar.read rest
    return ⟨build given, ((given.value? "config").or (before.value? "config")).map Path.mk⟩

end ImportFence
