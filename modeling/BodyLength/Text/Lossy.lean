import BodyLength.Text.Bytes
/-!
# Showing bytes

Bytes that encode a text are shown as that text. Others are shown character by character, with
the replacement character for what is none: once for every longest run of bytes that a
character could have begun with, and once for every other byte.
-/

namespace BodyLength

namespace Utf8

/-- What the first byte of a character says of the next ones: how many there are, and the least
and the greatest value of the first of them. -/
structure Lead where
  more : Nat
  low : UInt8
  high : UInt8

/-- The first bytes of characters beyond ASCII. -/
def lead? (b : UInt8) : Option Lead :=
  if 0xC2 ≤ b ∧ b ≤ 0xDF then some ⟨1, 0x80, 0xBF⟩
  else if b = 0xE0 then some ⟨2, 0xA0, 0xBF⟩
  else if b = 0xED then some ⟨2, 0x80, 0x9F⟩
  else if 0xE1 ≤ b ∧ b ≤ 0xEF then some ⟨2, 0x80, 0xBF⟩
  else if b = 0xF0 then some ⟨3, 0x90, 0xBF⟩
  else if b = 0xF4 then some ⟨3, 0x80, 0x8F⟩
  else if 0xF1 ≤ b ∧ b ≤ 0xF3 then some ⟨3, 0x80, 0xBF⟩
  else none

/-- Whether a byte goes on with a character. -/
def isTail (b : UInt8) : Bool := 0x80 ≤ b && b ≤ 0xBF

/-- How many bytes of `rest` could go on with a character that begins with `first`. -/
def tailLength (first : UInt8) (rest : List UInt8) : Nat :=
  match lead? first, rest with
  | some l, b :: rest =>
    if l.low ≤ b ∧ b ≤ l.high then 1 + ((rest.take (l.more - 1)).takeWhile isTail).length else 0
  | _, _ => 0

/-- The characters of some bytes, with the replacement character for what is none. -/
def replacing : List UInt8 → List Char
  | [] => []
  | b :: rest =>
    let n := tailLength b rest
    let c := match text? (b :: rest.take n) with
      | some s => s.toList
      | none => ['\ufffd']
    c ++ replacing (rest.drop n)
termination_by bs => bs.length

end Utf8

/-- Bytes as a text, whatever they are. -/
def shownText (bs : List UInt8) : String :=
  match text? bs with
  | some s => s
  | none => String.ofList (Utf8.replacing bs)

end BodyLength
