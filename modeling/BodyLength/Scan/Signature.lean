import BodyLength.Lexing.Trace
/-!
# Function signatures

A signature candidate is an identifier directly followed by a parameter list. A parameter
list runs to the parenthesis that closes it; a semicolon between its outermost parentheses
or the end of the text means there is none. What looks like a signature may be a call:
whether a body follows is decided elsewhere.

Candidates are found from left to right. The search goes on behind a candidate, and inside
the parentheses of an identifier that turned out to be none.
-/

namespace BodyLength

/-- Which bytes of a parameter list count. -/
inductive SignatureMode where
  /-- Every parenthesis and semicolon, also in literals and comments. -/
  | baseline
  /-- Only those in plain code. -/
  | literalAware
deriving DecidableEq, Repr

namespace SignatureMode

/-- Reads one step of a parameter list at a place that has `b` left, followed by `r`. -/
def read (mode : SignatureMode) (s : LexState) (c : Cursor) (b : UInt8) (r : List UInt8) :
    LexStep :=
  match mode with
  | .baseline => ⟨1, some b, s⟩
  | .literalAware => s.stepAt c b r

theorem length_rest_skip_read (mode : SignatureMode) (s : LexState) (c : Cursor) {b : UInt8}
    {r : List UInt8} (h : c.rest = b :: r) :
    (c.skip (mode.read s c b r).advance).rest.length < c.rest.length := by
  cases mode with
  | baseline => simp [read, h]
  | literalAware => exact s.length_rest_skip_stepAt c h

/-- The place behind the parenthesis that closes a list, from a place inside it with
`depth` inner parentheses still to close. -/
def closeFrom (mode : SignatureMode) (depth : Nat) (s : LexState) (c : Cursor) : Option Cursor :=
  match h : c.rest with
  | [] => none
  | b :: r =>
    let step := mode.read s c b r
    if step.code = some Byte.leftParen then
      closeFrom mode (depth + 1) step.next (c.skip step.advance)
    else if step.code = some Byte.rightParen then
      if depth = 0 then some (c.skip 1)
      else closeFrom mode (depth - 1) step.next (c.skip step.advance)
    else if step.code = some Byte.semicolon ∧ depth = 0 then none
    else closeFrom mode depth step.next (c.skip step.advance)
termination_by c.rest.length
decreasing_by all_goals exact mode.length_rest_skip_read s c h

/-- The place behind the parenthesis that closes the one just before `c`. -/
def close? (mode : SignatureMode) (c : Cursor) : Option Cursor :=
  mode.closeFrom 0 .plain c

end SignatureMode

/-- A candidate, from the first byte of its identifier to just behind its parameter list. -/
structure Signature where
  first : Cursor
  behind : Cursor
deriving DecidableEq, Repr

namespace Signature

/-- The offset of the identifier. -/
def start (x : Signature) : Nat := x.first.offset

/-- The offset behind the closing parenthesis. -/
def stop (x : Signature) : Nat := x.behind.offset

/-- The bytes from the identifier through the closing parenthesis. -/
def raw (x : Signature) : List UInt8 := x.first.rest.take (x.stop - x.start)

/-- The text of the signature; it ends between characters, as its last byte is ASCII. -/
def rawText? (x : Signature) : Option String := text? x.raw

def nameBytes (x : Signature) : List UInt8 := x.raw.takeWhile (· != Byte.leftParen)

/-- The identifier. -/
def name (x : Signature) : String := asciiText x.nameBytes

/-- The first identifier from a place on, or the end of the text. -/
def identifierFrom (c : Cursor) : Cursor := c.skipWhile (!Byte.isIdentifier ·)

theorem length_rest_behind_identifier (c : Cursor) {b : UInt8} {r : List UInt8}
    (h : (identifierFrom c).rest = b :: r) :
    ((identifierFrom c).skipWhile Byte.isIdentifier).rest.length < c.rest.length := by
  have hb : Byte.isIdentifier b = true := by
    have := List.head?_dropWhile_not (fun b => !Byte.isIdentifier b) c.rest
    rw [← Cursor.rest_skipWhile, ← identifierFrom, h] at this
    simpa using this
  have hc : (identifierFrom c).rest.length ≤ c.rest.length := by
    rw [identifierFrom, Cursor.rest_skipWhile]
    exact (List.dropWhile_sublist _).length_le
  rw [Cursor.rest_skipWhile, h, List.dropWhile_cons_of_pos hb]
  rw [h] at hc
  exact Nat.lt_of_le_of_lt (List.dropWhile_sublist _).length_le hc

/-- The first candidate from a place on, and the place to search on from. With no
candidate left that is the end of the text. -/
def next (mode : SignatureMode) (c : Cursor) : Option Signature × Cursor :=
  match _h : (identifierFrom c).rest with
  | [] => (none, identifierFrom c)
  | _ :: _ =>
    let paren := (identifierFrom c).skipWhile Byte.isIdentifier
    if paren.here? = some Byte.leftParen then
      match mode.close? (paren.skip 1) with
      | some behind => (some ⟨identifierFrom c, behind⟩, behind)
      | none => next mode (paren.skip 1)
    else next mode paren
termination_by c.rest.length
decreasing_by
  · have := length_rest_behind_identifier c _h
    simp only [Cursor.rest_skip, List.length_drop]
    omega
  · exact length_rest_behind_identifier c _h

theorem length_rest_close? {mode : SignatureMode} {c behind : Cursor}
    (h : mode.close? c = some behind) : behind.rest.length < c.rest.length := by
  have main (depth : Nat) (s : LexState) (c : Cursor)
      (h : mode.closeFrom depth s c = some behind) : behind.rest.length < c.rest.length := by
    fun_induction SignatureMode.closeFrom mode depth s c with
    | case1 => simp at h
    | case2 depth s c b r hc step _ ih =>
      exact Nat.lt_trans (ih h) (mode.length_rest_skip_read s c hc)
    | case3 s c b r hc step _ _ =>
      cases h
      simp [hc]
    | case4 depth s c b r hc step _ _ _ ih =>
      exact Nat.lt_trans (ih h) (mode.length_rest_skip_read s c hc)
    | case5 => simp at h
    | case6 depth s c b r hc step _ _ _ ih =>
      exact Nat.lt_trans (ih h) (mode.length_rest_skip_read s c hc)
  exact main 0 .plain c h

theorem length_rest_next {mode : SignatureMode} {c : Cursor} {x : Signature}
    (h : (next mode c).1 = some x) : (next mode c).2.rest.length < c.rest.length := by
  fun_induction next mode c with
  | case1 => simp at h
  | case2 c b r hc paren _ behind hclose =>
    have := length_rest_close? hclose
    have hp := length_rest_behind_identifier c hc
    simp only [Cursor.rest_skip, List.length_drop] at this
    simp only [paren] at this
    show behind.rest.length < _
    omega
  | case3 c b r hc paren _ _ ih =>
    have hp := length_rest_behind_identifier c hc
    have := ih h
    simp only [Cursor.rest_skip, List.length_drop, paren] at this ⊢
    omega
  | case4 c b r hc paren _ ih =>
    exact Nat.lt_trans (ih h) (length_rest_behind_identifier c hc)

/-- All candidates from a place on. -/
def allFrom (mode : SignatureMode) (c : Cursor) : List Signature :=
  match _h : next mode c with
  | (none, _) => []
  | (some x, behind) => x :: allFrom mode behind
termination_by c.rest.length
decreasing_by
  have := @length_rest_next mode c x (by rw [_h])
  rwa [_h] at this

end Signature

end BodyLength
