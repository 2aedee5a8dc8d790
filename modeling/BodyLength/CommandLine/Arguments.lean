import BodyLength.Files.Path
import BodyLength.Report.Selection
/-!
# Command line arguments

A command is `scan PATH`, `config validate` or `config show`, with long options. An option
that takes a value has it behind an equals sign or in the next argument. No option may be
given twice, and nothing that begins with a dash is a value, except for a single dash. All
arguments behind two dashes are operands.
-/

namespace BodyLength

inductive OutputFormat where
  | text
  | json
  /-- A remark per line. -/
  | remarks
deriving DecidableEq, Repr

structure ScanFlags where
  format : OutputFormat := .text
  maxLines : Option UInt64 := none
  top : Option UInt64 := none
  minLines : Option UInt64 := none
  warningsOnly : Bool := false
  order : SortOrder := .source
  lenientBraces : Bool := false
  literalAwareSignatures : Bool := false
  /-- The configuration file to use. -/
  config : Option FilePath := none
  /-- Whether a warning makes the run fail. -/
  failOnWarning : Bool := false
deriving DecidableEq, Repr

inductive Command where
  | scan (path : FilePath) (flags : ScanFlags)
  | validateConfig (path : Option FilePath)
  | showConfig (path : Option FilePath)
deriving DecidableEq, Repr

/-- Arguments taken apart; each option is there at most once. -/
structure Arguments where
  operands : List String := []
  flags : List String := []
  values : List (String × String) := []
deriving DecidableEq, Repr

/-- Which long options there are. -/
structure OptionNames where
  flags : List String
  values : List String

namespace Arguments

def addOperand (s : String) (a : Arguments) : Arguments := { a with operands := s :: a.operands }

def addFlag (name : String) (a : Arguments) : Option Arguments :=
  if a.flags.contains name then none else some { a with flags := name :: a.flags }

def addValue (name value : String) (a : Arguments) : Option Arguments :=
  if (a.values.lookup name).isSome then none
  else some { a with values := (name, value) :: a.values }

/-- The name of a long option, and the value behind its equals sign if it has one. -/
def splitOption (s : List Char) : String × Option String :=
  let name := s.takeWhile (· != '=')
  (String.ofList name,
    match s.drop name.length with
    | _ :: value => some (String.ofList value)
    | [] => none)

/-- Whether an argument looks like an option. -/
def isOption (s : String) : Bool :=
  match s.toList with
  | '-' :: _ :: _ => true
  | _ => false

/-- Takes arguments apart. There is no result if they are not well-formed. -/
def read (names : OptionNames) : List String → Option Arguments
  | [] => some {}
  | arg :: rest =>
    match arg.toList with
    | ['-', '-'] => some { operands := rest }
    | ['-', 'v'] => do (← read names rest).addFlag "verbose"
    | '-' :: '-' :: option =>
      match splitOption option with
      | (name, none) =>
        if names.flags.contains name then do (← read names rest).addFlag name
        else if names.values.contains name then
          match rest with
          | [] => none
          | value :: rest =>
            if isOption value then none else do (← read names rest).addValue name value
        else none
      | (name, some value) =>
        if names.values.contains name then do (← read names rest).addValue name value else none
    | '-' :: _ :: _ => none
    | _ => do return (← read names rest).addOperand arg

/-- Reads a number of 64 bits; a plus sign may come first. -/
def number? (s : String) : Option UInt64 :=
  let digits := match s.toList with
    | '+' :: rest => rest
    | s => s
  if digits.isEmpty ∨ !digits.all Char.isDigit then none
  else
    let n : Nat := digits.foldl (fun n c => 10 * n + (c.toNat - 48)) 0
    if n < UInt64.size then some n.toUInt64 else none

/-- Reads the value of an option that may be missing. -/
def value? {α : Type} (a : Arguments) (name : String) (read : String → Option α) :
    Option (Option α) :=
  match a.values.lookup name with
  | none => some none
  | some s => (read s).map some

def format? : String → Option OutputFormat
  | "text" => some .text
  | "json" => some .json
  | "annotations" => some .remarks
  | _ => none

def order? : String → Option SortOrder
  | "source" => some .source
  | "lines" => some .lines
  | _ => none

def path? (s : String) : Option FilePath := if s.isEmpty then none else some (bytes s)

def scanOptions : OptionNames where
  flags :=
    ["verbose", "warnings-only", "lenient-braces", "literal-aware-signatures", "fail-on-warning",
     "no-progress"]
  values := ["format", "max-lines", "top", "min-lines", "sort", "config"]

def configOptions : OptionNames where
  flags := ["verbose"]
  values := ["path"]

def scanFlags (a : Arguments) : Option ScanFlags := do
  return {
    format := (← a.value? "format" format?).getD .text
    maxLines := ← a.value? "max-lines" number?
    top := ← a.value? "top" number?
    minLines := ← a.value? "min-lines" number?
    warningsOnly := a.flags.contains "warnings-only"
    order := (← a.value? "sort" order?).getD .source
    lenientBraces := a.flags.contains "lenient-braces"
    literalAwareSignatures := a.flags.contains "literal-aware-signatures"
    config := ← a.value? "config" path?
    failOnWarning := a.flags.contains "fail-on-warning" }

end Arguments

namespace Command

/-- The arguments from the first one that is no option, if only `-v` or its long form comes
before it, at most once. -/
def skipVerbose : List String → List String
  | arg :: rest => if arg = "-v" ∨ arg = "--verbose" then rest else arg :: rest
  | [] => []

def readScan (args : List String) : Option Command := do
  let a ← Arguments.read Arguments.scanOptions args
  match a.operands with
  | [path] => return scan (← Arguments.path? path) (← a.scanFlags)
  | _ => none

def readConfig (command : Option FilePath → Command) (args : List String) : Option Command := do
  let a ← Arguments.read Arguments.configOptions args
  match a.operands with
  | [] => return command (← a.value? "path" Arguments.path?)
  | _ => none

/-- The command of some arguments, if they make one. -/
def ofArguments (args : List String) : Option Command :=
  match skipVerbose args with
  | "scan" :: rest => readScan rest
  | "config" :: rest =>
    match skipVerbose rest with
    | "validate" :: rest => readConfig validateConfig rest
    | "show" :: rest => readConfig showConfig rest
    | _ => none
  | _ => none

end Command

end BodyLength
