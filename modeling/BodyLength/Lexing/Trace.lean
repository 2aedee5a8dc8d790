import BodyLength.Lexing.State
/-!
# Reading a text to its end

`LexState.trace` lists every step taken from a place to the end of the text, and
`LexState.code` the bytes of plain code among them with their offsets.
-/

namespace BodyLength

/-- A step together with where it was taken. -/
structure TracedStep where
  offset : Nat
  step : LexStep
deriving DecidableEq, Repr

namespace LexState

/-- The step taken at a place that has a byte `b` left, followed by `r`. -/
def stepAt (s : LexState) (c : Cursor) (b : UInt8) (r : List UInt8) : LexStep :=
  s.step c.before b r.head?

theorem length_rest_skip_stepAt (s : LexState) (c : Cursor) {b : UInt8} {r : List UInt8}
    (h : c.rest = b :: r) : (c.skip (s.stepAt c b r).advance).rest.length < c.rest.length := by
  have := s.advance_step c.before b r.head?
  simp only [Cursor.rest_skip, List.length_drop, h, List.length_cons, stepAt]
  omega

def trace (s : LexState) (c : Cursor) : List TracedStep :=
  match _h : c.rest with
  | [] => []
  | b :: r =>
    ⟨c.offset, s.stepAt c b r⟩ :: trace (s.stepAt c b r).next (c.skip (s.stepAt c b r).advance)
termination_by c.rest.length
decreasing_by exact s.length_rest_skip_stepAt c _h

@[simp] theorem trace_nil (s : LexState) (o : Nat) (p : Option UInt8) : s.trace ⟨o, p, []⟩ = [] := by
  rw [trace]

theorem trace_cons (s : LexState) (o : Nat) (p : Option UInt8) (b : UInt8) (r : List UInt8) :
    s.trace ⟨o, p, b :: r⟩ = ⟨o, s.step p b r.head?⟩ ::
      (s.step p b r.head?).next.trace ((⟨o, p, b :: r⟩ : Cursor).skip (s.step p b r.head?).advance) := by
  rw [trace]
  rfl

/-- The bytes of plain code from a place on, each with its offset. -/
def code (s : LexState) (c : Cursor) : List (Nat × UInt8) :=
  (s.trace c).filterMap fun t => t.step.code.map (t.offset, ·)

theorem code_of_nil (s : LexState) {c : Cursor} (h : c.rest = []) : s.code c = [] := by
  rw [code, trace]
  split
  · rfl
  · simp_all

/-- The first step contributes the byte it read, if that is code, in front of the rest. -/
theorem code_of_cons (s : LexState) {c : Cursor} {b : UInt8} {r : List UInt8} (h : c.rest = b :: r) :
    s.code c = ((s.stepAt c b r).code.map (c.offset, ·)).toList ++
      (s.stepAt c b r).next.code (c.skip (s.stepAt c b r).advance) := by
  obtain ⟨o, p, l⟩ := c
  cases h
  rw [code, trace_cons, List.filterMap_cons]
  simp only [stepAt]
  cases (s.step p b r.head?).code <;> rfl

/-- The state after the last step of a trace. -/
def stateAfter (s : LexState) (t : List TracedStep) : LexState :=
  match t.getLast? with
  | none => s
  | some l => l.step.next

/-- The offset after the last step of a trace that began at `offset`. -/
def offsetAfter (offset : Nat) (t : List TracedStep) : Nat :=
  match t.getLast? with
  | none => offset
  | some l => l.offset + l.step.advance

@[simp] theorem offsetAfter_nil (o : Nat) : offsetAfter o [] = o := rfl

theorem offsetAfter_append (o : Nat) (t u : List TracedStep) :
    offsetAfter o (t ++ u) = offsetAfter (offsetAfter o t) u := by
  rw [offsetAfter, List.getLast?_append, offsetAfter]
  cases u.getLast? <;> rfl

theorem offsetAfter_cons (o : Nat) (x : TracedStep) (t : List TracedStep) :
    offsetAfter o (x :: t) = offsetAfter (x.offset + x.step.advance) t :=
  offsetAfter_append o [x] t

end LexState

end BodyLength
