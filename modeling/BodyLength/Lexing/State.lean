import BodyLength.Text.Cursor
/-!
# What a byte of source text is part of

`LexState` says whether the next byte lies in a string, a character literal, a line
comment or a block comment; with no flag set it is plain code. `LexState.step` reads one
byte, or two where the second cannot mean anything by itself: an escape in a literal and
the two bytes that open a comment.

A block comment ends at a `/` whose previous byte is a star. The newline that ends a line
comment is plain code. An escape as the last byte of the text still counts two bytes.
-/

namespace BodyLength

structure LexState where
  inString : Bool := false
  inChar : Bool := false
  inLineComment : Bool := false
  inBlockComment : Bool := false
deriving DecidableEq, Repr

/-- What reading at one place came to. -/
structure LexStep where
  /-- How many bytes were read, 1 or 2. -/
  advance : Nat
  /-- The byte read, where it is plain code. -/
  code : Option UInt8
  next : LexState
deriving DecidableEq, Repr

namespace LexState

/-- Outside every literal and comment. -/
def plain : LexState := {}

def inComment (s : LexState) : Bool := s.inLineComment || s.inBlockComment

def inLiteral (s : LexState) : Bool := s.inString || s.inChar

def isCode (s : LexState) : Bool := !s.inComment && !s.inLiteral

def stepComment (s : LexState) (before : Option UInt8) (b : UInt8) : LexStep :=
  if s.inLineComment ∧ b = Byte.newline then ⟨1, some b, { s with inLineComment := false }⟩
  else if s.inBlockComment ∧ b = Byte.slash ∧ before = some Byte.star then
    ⟨1, none, { s with inBlockComment := false }⟩
  else ⟨1, none, s⟩

def stepLiteral (s : LexState) (b : UInt8) : LexStep :=
  if b = Byte.backslash then ⟨2, none, s⟩
  else if b = Byte.doubleQuote ∧ !s.inChar then ⟨1, none, { s with inString := false }⟩
  else if b = Byte.singleQuote ∧ !s.inString then ⟨1, none, { s with inChar := false }⟩
  else ⟨1, none, s⟩

def stepCode (s : LexState) (b : UInt8) (after : Option UInt8) : LexStep :=
  if b = Byte.doubleQuote then ⟨1, none, { s with inString := true }⟩
  else if b = Byte.singleQuote then ⟨1, none, { s with inChar := true }⟩
  else if b = Byte.slash ∧ after = some Byte.slash then ⟨2, none, { s with inLineComment := true }⟩
  else if b = Byte.slash ∧ after = some Byte.star then ⟨2, none, { s with inBlockComment := true }⟩
  else ⟨1, some b, s⟩

/-- Reads the byte `b`, which stands between the bytes `before` and `after`. -/
def step (s : LexState) (before : Option UInt8) (b : UInt8) (after : Option UInt8) : LexStep :=
  if s.inComment then s.stepComment before b
  else if s.inLiteral then s.stepLiteral b
  else s.stepCode b after

theorem advance_step (s : LexState) (before : Option UInt8) (b : UInt8) (after : Option UInt8) :
    (s.step before b after).advance = 1 ∨ (s.step before b after).advance = 2 := by
  unfold step stepComment stepLiteral stepCode
  repeat' split
  all_goals simp

/-- A step that yields a byte of code yields the byte it read, and reads no other. -/
theorem advance_step_of_code (s : LexState) (before : Option UInt8) (b : UInt8)
    (after : Option UInt8) (k : UInt8) (h : (s.step before b after).code = some k) :
    k = b ∧ (s.step before b after).advance = 1 := by
  revert h
  unfold step stepComment stepLiteral stepCode
  repeat' split
  all_goals simp_all

end LexState

end BodyLength
