import BodyLength.Log
import BodyLength.Text.Blank
/-!
# Colors

A color is one of a few names or three or six hexadecimal digits, which may have a number
sign in front. White space around it and the case of ASCII letters do not matter. What is
no color is replaced by a default and a warning is logged.
-/

namespace BodyLength

inductive ColorName where
  | black | blue | brown | cyan | gray | green | grey | magenta | orange | pink | purple | red
  | white | yellow
deriving DecidableEq, Repr

namespace ColorName

def all : List ColorName :=
  [black, blue, brown, cyan, gray, green, grey, magenta, orange, pink, purple, red, white, yellow]

def name : ColorName → String
  | black => "black"
  | blue => "blue"
  | brown => "brown"
  | cyan => "cyan"
  | gray => "gray"
  | green => "green"
  | grey => "grey"
  | magenta => "magenta"
  | orange => "orange"
  | pink => "pink"
  | purple => "purple"
  | red => "red"
  | white => "white"
  | yellow => "yellow"

def ofName? (s : List Char) : Option ColorName :=
  all.find? fun n => n.name.toList = s

end ColorName

inductive Color where
  | named (name : ColorName)
  /-- The digits are in lower case. -/
  | hex (digits : List Char)
deriving DecidableEq, Repr

namespace Color

def isHexDigit (c : Char) : Bool :=
  ('0' ≤ c && c ≤ '9') || ('A' ≤ c && c ≤ 'F') || ('a' ≤ c && c ≤ 'f')

/-- Reads three or six digits, with or without a number sign. -/
def parseHex? (s : List Char) : Option Color :=
  let digits := match s with
    | '#' :: rest => rest
    | _ => s
  if digits.all isHexDigit ∧ (digits.length = 3 ∨ digits.length = 6) then
    some (.hex (digits.map lowerAscii))
  else none

/-- Reads a color. -/
def parse? (value : String) : Option Color :=
  let s := Blank.trim value.toList
  match parseHex? s with
  | some c => some c
  | none => (ColorName.ofName? (s.map lowerAscii)).map .named

/-- The form in which a color is shown; it reads back as the same color. -/
def display : Color → String
  | named n => n.name
  | hex digits => "#" ++ String.ofList digits

/-- Reads a configured color, falling back on a default. -/
def parseOr (value : Option String) (fallback : ColorName) : Color :=
  match value with
  | none => .named fallback
  | some raw => (parse? raw).getD (.named fallback)

/-- The warning that goes with a fallback. -/
def warnings (value : Option String) (fallback : ColorName) : List LogEvent :=
  match value with
  | none => []
  | some raw => if (parse? raw).isNone then [.invalidColor raw fallback.name] else []

end Color

/-- The colors of the two severities. -/
structure Palette where
  neutral : Color := .named .gray
  warning : Color := .named .red
deriving DecidableEq, Repr

namespace Palette

def neutralDefault : ColorName := .gray

def warningDefault : ColorName := .red

end Palette

end BodyLength
