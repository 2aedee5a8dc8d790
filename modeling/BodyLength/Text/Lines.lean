import BodyLength.Text.Bytes
/-!
# Lines of a text

Lines are numbered from 1 and end with their newline, so a text that ends in a newline
has an empty last line. `LineIndex` holds where each line starts, in ascending order,
and finds the line of an offset by bisection.
-/

namespace BodyLength

structure LineIndex where
  starts : Array Nat
  /-- The length of the text. -/
  size : Nat

namespace LineIndex

def ofBytes (bs : List UInt8) : LineIndex where
  starts := (0 :: bs.zipIdx.filterMap fun (b, i) =>
    if b = Byte.newline then some (i + 1) else none).toArray
  size := bs.length

def lineCount (x : LineIndex) : Nat := x.starts.size

/-- How many of `xs` are at most `bound`, found by bisection between `lo` and `hi`;
`xs` ascends. -/
def bisect (xs : Array Nat) (bound : Nat) (lo hi : Nat) : Nat :=
  if _h : lo < hi then
    match xs[(lo + hi) / 2]? with
    | none => lo
    | some x =>
      if x ≤ bound then bisect xs bound ((lo + hi) / 2 + 1) hi
      else bisect xs bound lo ((lo + hi) / 2)
  else lo
termination_by hi - lo

/-- The number of the line that holds an offset; offsets past the end of the text are on
its last line. -/
def lineOf (x : LineIndex) (offset : Nat) : UInt32 :=
  (bisect x.starts (min offset x.size) 0 x.starts.size).toUInt32

/-- Where a line starts, if the text has that line. -/
def lineStart? (x : LineIndex) (line : UInt32) : Option Nat :=
  if line = 0 then none else x.starts[line.toNat - 1]?

end LineIndex

end BodyLength
