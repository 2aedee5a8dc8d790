import BodyLength.Scan.Interrupt
import BodyLength.Scan.Signature
/-!
# Function bodies

A body begins with a brace behind a signature and ends with the brace that matches it.
Only braces in plain code count, and the lexer starts afresh behind the opening brace, so
a body does not depend on the text before it. Each step of the lexer is a question to the
interrupt.
-/

namespace BodyLength

/-- Where the opening brace of a body may stand. -/
inductive BracePlacement where
  /-- At the start of the line after the parameter list. -/
  | nextLine
  /-- Behind blanks and at most one newline. -/
  | lenient
deriving DecidableEq, Repr

namespace BracePlacement

/-- The opening brace of a body whose parameter list ends just before `c`. -/
def locate? (placement : BracePlacement) (c : Cursor) : Option Cursor :=
  match placement with
  | .nextLine =>
    if c.here? = some Byte.newline ∧ (c.skip 1).here? = some Byte.leftBrace then some (c.skip 1)
    else none
  | .lenient =>
    let c := c.skipWhile Byte.isBlank
    let c := if c.here? = some Byte.newline then (c.skip 1).skipWhile Byte.isBlank else c
    if c.here? = some Byte.leftBrace then some c else none

end BracePlacement

/-- What became of the search for a closing brace. -/
inductive BraceMatch where
  /-- The offset of the brace that closes the body. -/
  | closed (offset : Nat)
  /-- The text ends first. -/
  | unbalanced
  | interrupted
deriving DecidableEq, Repr

namespace BraceMatch

/-- How many inner braces are to be closed after a byte of code, if `depth` were before. -/
def depthAfter (depth : Nat) (code : Option UInt8) : Nat :=
  if code = some Byte.leftBrace then depth + 1
  else if code = some Byte.rightBrace then depth - 1
  else depth

/-- Searches from a place in a body where `depth` inner braces are to be closed and `asked`
questions have been put to the interrupt. Also counts the questions. -/
def searchFrom (interrupt : Interrupt) (asked depth : Nat) (s : LexState) (c : Cursor) :
    BraceMatch × Nat :=
  match _h : c.rest with
  | [] => (.unbalanced, asked)
  | b :: r =>
    if interrupt.stop asked then (.interrupted, asked + 1)
    else
      let step := s.stepAt c b r
      if step.code = some Byte.rightBrace ∧ depth = 0 then (.closed c.offset, asked + 1)
      else searchFrom interrupt (asked + 1) (depthAfter depth step.code) step.next
        (c.skip step.advance)
termination_by c.rest.length
decreasing_by exact s.length_rest_skip_stepAt c _h

/-- Searches for the brace that closes the one at `c`, after `asked` questions. -/
def search (interrupt : Interrupt) (asked : Nat) (c : Cursor) : BraceMatch × Nat :=
  searchFrom interrupt asked 0 .plain (c.skip 1)

end BraceMatch

/-- How many lines stand between an opening brace at `c` and a closing one at offset `close`.

The newline that ends the line of the opening brace does not count, so the count starts two
bytes behind that brace, or three where a carriage return follows it. -/
def countBodyLines (c : Cursor) (close : Nat) : Nat :=
  let c := c.skip (if (c.skip 1).here? = some Byte.carriageReturn then 3 else 2)
  (c.rest.take (close - c.offset)).count Byte.newline

/-- A body with its signature. -/
structure Body where
  signature : Signature
  /-- The opening brace. -/
  brace : Cursor
  /-- The offset of the closing brace. -/
  close : Nat
deriving DecidableEq, Repr

namespace Body

def lineCount (x : Body) : Nat := countBodyLines x.brace x.close

end Body

end BodyLength
