/-!
# Texts as bytes

Everything that scans a text looks at its UTF-8 bytes. The bytes that carry meaning
are all ASCII, so none of them is ever part of a longer character.
-/

namespace BodyLength

/-- The UTF-8 encoding of a text. -/
def bytes (s : String) : List UInt8 :=
  s.toUTF8.data.toList

/-- The text that a byte list encodes, if it is UTF-8. -/
def text? (bs : List UInt8) : Option String :=
  String.fromUTF8? ⟨bs.toArray⟩

/-- The text of bytes that are all ASCII. -/
def asciiText (bs : List UInt8) : String :=
  String.ofList (bs.map fun b => Char.ofNat b.toNat)

namespace Byte

def tab : UInt8 := 0x09
def newline : UInt8 := 0x0A
def carriageReturn : UInt8 := 0x0D
def space : UInt8 := 0x20
def doubleQuote : UInt8 := 0x22
def singleQuote : UInt8 := 0x27
def leftParen : UInt8 := 0x28
def rightParen : UInt8 := 0x29
def star : UInt8 := 0x2A
def dot : UInt8 := 0x2E
def slash : UInt8 := 0x2F
def semicolon : UInt8 := 0x3B
def backslash : UInt8 := 0x5C
def leftBrace : UInt8 := 0x7B
def rightBrace : UInt8 := 0x7D

/-- ASCII letters, digits and the underscore. -/
def isIdentifier (b : UInt8) : Bool :=
  (0x30 ≤ b && b ≤ 0x39) || (0x41 ≤ b && b ≤ 0x5A) || (0x61 ≤ b && b ≤ 0x7A) || b == 0x5F

/-- White space that stays on its line: spaces, tabs and carriage returns. -/
def isBlank (b : UInt8) : Bool :=
  b == space || b == tab || b == carriageReturn

end Byte

end BodyLength
