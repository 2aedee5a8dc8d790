import BodyLength.Decimal.Shortest
import BodyLength.Text.Quoted
/-!
# What can be wrong with a JSON text

A `JsonError` is a fault and the position where it shows. Positions count lines from 1 and,
within a line, the bytes read so far.
-/

namespace BodyLength

/-- How far a text has been read. -/
structure JsonPosition where
  line : Nat := 1
  column : Nat := 0
deriving DecidableEq, Repr

namespace JsonPosition

/-- After a character. -/
def after (p : JsonPosition) (c : Char) : JsonPosition :=
  if c = '\n' then ⟨p.line + 1, 0⟩ else ⟨p.line, p.column + c.utf8Size⟩

/-- After the first byte of a character. -/
def afterByte (p : JsonPosition) (c : Char) : JsonPosition :=
  if c = '\n' then ⟨p.line + 1, 0⟩ else ⟨p.line, p.column + 1⟩

/-- After `n` characters that are ASCII and no newlines. -/
def right (p : JsonPosition) (n : Nat) : JsonPosition := ⟨p.line, p.column + n⟩

end JsonPosition

/-- A value that is neither a list nor an object. -/
inductive JsonScalar where
  | null
  | bool (b : Bool)
  /-- A whole number that fits 64 bits, signed or unsigned. -/
  | integer (n : Int)
  /-- Any other number. -/
  | float (x : Float)
  | text (s : String)

/-- What was found where something else was expected. -/
inductive JsonShape where
  | scalar (x : JsonScalar)
  | sequence
  | map

namespace JsonShape

def describe : JsonShape → String
  | scalar .null => "null"
  | scalar (.bool b) => "boolean `" ++ (if b then "true" else "false") ++ "`"
  | scalar (.integer n) => "integer `" ++ n.repr ++ "`"
  | scalar (.float x) => "floating point `" ++ floatText x ++ "`"
  | scalar (.text s) => "string " ++ Quoted.encode s
  | sequence => "sequence"
  | map => "map"

end JsonShape

/-- What a reader was prepared for. -/
inductive JsonExpectation where
  | config
  | entry
  | sequence
  | string
  | boolean
  | word64
  | word32
  | stringOrMap
  | singleKeyMap
  | unit
deriving DecidableEq, Repr

namespace JsonExpectation

def describe : JsonExpectation → String
  | config => "struct FunclinesConfig"
  | entry => "struct FunctionEntry"
  | sequence => "a sequence"
  | string => "a string"
  | boolean => "a boolean"
  | word64 => "usize"
  | word32 => "u32"
  | stringOrMap => "string or map"
  | singleKeyMap => "map with a single key"
  | unit => "unit"

end JsonExpectation

inductive JsonFault where
  | endInValue
  | endInList
  | endInObject
  | endInString
  | expectedValue
  | expectedIdent
  | expectedColon
  | expectedCommaOrBracket
  | expectedCommaOrBrace
  | keyNotString
  | trailingComma
  | trailingCharacters
  | invalidNumber
  | numberOutOfRange
  | invalidEscape
  /-- A low surrogate comes first, or something else than one comes second. -/
  | loneSurrogate
  /-- Nothing that could be a low surrogate follows a high one. -/
  | unfinishedSurrogate
  | controlCharacter
  | tooDeep
  | invalidType (found : JsonShape) (expected : JsonExpectation)
  | invalidValue (found : JsonShape) (expected : JsonExpectation)
  | missingField (name : String)
  | duplicateField (name : String)
  | unknownField (name : String) (known : List String)
  | unknownVariant (name : String) (known : List String)

namespace JsonFault

/-- Names in backquotes, as alternatives. -/
def oneOf (names : List String) : String :=
  let quoted := names.map fun n => "`" ++ n ++ "`"
  match quoted with
  | [a, b] => a ++ " or " ++ b
  | _ => "one of " ++ String.intercalate ", " quoted

def message : JsonFault → String
  | endInValue => "EOF while parsing a value"
  | endInList => "EOF while parsing a list"
  | endInObject => "EOF while parsing an object"
  | endInString => "EOF while parsing a string"
  | expectedValue => "expected value"
  | expectedIdent => "expected ident"
  | expectedColon => "expected `:`"
  | expectedCommaOrBracket => "expected `,` or `]`"
  | expectedCommaOrBrace => "expected `,` or `\x7d`"
  | keyNotString => "key must be a string"
  | trailingComma => "trailing comma"
  | trailingCharacters => "trailing characters"
  | invalidNumber => "invalid number"
  | numberOutOfRange => "number out of range"
  | invalidEscape => "invalid escape"
  | loneSurrogate => "lone leading surrogate in hex escape"
  | unfinishedSurrogate => "unexpected end of hex escape"
  | controlCharacter => "control character (\\u0000-\\u001F) found while parsing a string"
  | tooDeep => "recursion limit exceeded"
  | invalidType found expected =>
    "invalid type: " ++ found.describe ++ ", expected " ++ expected.describe
  | invalidValue found expected =>
    "invalid value: " ++ found.describe ++ ", expected " ++ expected.describe
  | missingField name => "missing field `" ++ name ++ "`"
  | duplicateField name => "duplicate field `" ++ name ++ "`"
  | unknownField name known => "unknown field `" ++ name ++ "`, expected " ++ oneOf known
  | unknownVariant name known => "unknown variant `" ++ name ++ "`, expected " ++ oneOf known

end JsonFault

structure JsonError where
  fault : JsonFault
  position : JsonPosition

namespace JsonError

def message (e : JsonError) : String :=
  e.fault.message ++ " at line " ++ e.position.line.repr ++ " column " ++ e.position.column.repr

end JsonError

end BodyLength
