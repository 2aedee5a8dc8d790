import BodyLength.Text.Escaped
/-!
# Quoted texts

Messages show a text in double quotes. Quotes and backslashes inside have a backslash in
front, a few control characters have short names, and whatever could not be seen is shown
by its number.
-/

namespace BodyLength

namespace Quoted

def hexNumber (n : Nat) : List Char := Nat.toDigits 16 n

/-- How a character is shown inside quotes. -/
def encodeChar (c : Char) : List Char :=
  if c = '\x00' then ['\\', '0']
  else if c = '\t' then ['\\', 't']
  else if c = '\n' then ['\\', 'n']
  else if c = '\r' then ['\\', 'r']
  else if c = '\\' ∨ c = '"' then ['\\', c]
  else if Escaped.isEscaped c then '\\' :: 'u' :: '\x7b' :: hexNumber c.toNat ++ ['\x7d']
  else [c]

/-- A text as messages show it. -/
def encode (s : String) : String :=
  String.ofList ('"' :: s.toList.flatMap encodeChar ++ ['"'])

end Quoted

end BodyLength
