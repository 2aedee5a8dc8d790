import BodyLength.Json.Decode
/-!
# Writing JSON

A list or an object has each of its parts on a line of its own, indented by two spaces per
level, unless it is empty. Only quotes, backslashes and control characters are escaped.
-/

namespace BodyLength

namespace JsonText

def hexDigit (n : Nat) : Char := (Nat.digitChar n)

def encodeChar (c : Char) : List Char :=
  if c = '"' then ['\\', '"']
  else if c = '\\' then ['\\', '\\']
  else if c = '\x08' then ['\\', 'b']
  else if c = '\x0c' then ['\\', 'f']
  else if c = '\n' then ['\\', 'n']
  else if c = '\r' then ['\\', 'r']
  else if c = '\t' then ['\\', 't']
  else if c.toNat < 0x20 then
    ['\\', 'u', '0', '0', hexDigit (c.toNat / 16), hexDigit (c.toNat % 16)]
  else [c]

/-- A text in quotes. -/
def encode (s : String) : List Char := '"' :: s.toList.flatMap encodeChar ++ ['"']

def scalar : JsonScalar → List Char
  | .null => "null".toList
  | .bool b => (if b then "true" else "false").toList
  | .integer n => n.repr.toList
  | .float x => (floatText x).toList
  | .text s => encode s

/-- The start of a line at a level. -/
def newline (level : Nat) : List Char := '\n' :: List.replicate (2 * level) ' '

mutual

def value (level : Nat) : JsonValue → List Char
  | .scalar x => scalar x
  | .array [] => ['[', ']']
  | .array (x :: xs) =>
    '[' :: newline (level + 1) ++ value (level + 1) x ++ items (level + 1) xs ++
      newline level ++ [']']
  | .object [] => ['\x7b', '\x7d']
  | .object ((k, x) :: xs) =>
    '\x7b' :: newline (level + 1) ++ encode k ++ ':' :: ' ' :: value (level + 1) x ++
      members (level + 1) xs ++ newline level ++ ['\x7d']

/-- Items behind another one. -/
def items (level : Nat) : List JsonValue → List Char
  | [] => []
  | x :: xs => ',' :: newline level ++ value level x ++ items level xs

/-- Members behind another one. -/
def members (level : Nat) : List (String × JsonValue) → List Char
  | [] => []
  | (k, x) :: xs =>
    ',' :: newline level ++ encode k ++ ':' :: ' ' :: value level x ++ members level xs

end

end JsonText

namespace JsonValue

def pretty (v : JsonValue) : String := String.ofList (JsonText.value 0 v)

end JsonValue

end BodyLength
