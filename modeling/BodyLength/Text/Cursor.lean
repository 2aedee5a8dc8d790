import BodyLength.Text.Bytes
/-!
# Places in a text

A `Cursor` is a place in a text: how many bytes come before it, the last of those, and
the bytes still to read. Moving on only drops bytes from the front, so whatever is
computed from a cursor depends on the text before it through that one byte alone.
-/

namespace BodyLength

structure Cursor where
  /-- How many bytes come before. -/
  offset : Nat
  /-- The byte just before, if there is one. -/
  before : Option UInt8
  /-- The bytes from here to the end of the text. -/
  rest : List UInt8
deriving DecidableEq, Repr

namespace Cursor

def start (bs : List UInt8) : Cursor := ⟨0, none, bs⟩

/-- `n` bytes further on, which may be past the end of the text. -/
def skip (c : Cursor) : Nat → Cursor
  | 0 => c
  | n + 1 => ⟨c.offset + (n + 1), c.rest[n]?, c.rest.drop (n + 1)⟩

/-- The place at an offset of a text. -/
def atOffset (bs : List UInt8) (offset : Nat) : Cursor := (start bs).skip offset

/-- The first place from here whose byte fails `p`, or the end of the text. -/
def skipWhile (c : Cursor) (p : UInt8 → Bool) : Cursor :=
  c.skip (c.rest.takeWhile p).length

/-- The byte here, unless this is the end of the text. -/
def here? (c : Cursor) : Option UInt8 := c.rest.head?

@[simp] theorem offset_skip (c : Cursor) (n : Nat) : (c.skip n).offset = c.offset + n := by
  cases n <;> rfl

@[simp] theorem rest_skip (c : Cursor) (n : Nat) : (c.skip n).rest = c.rest.drop n := by
  cases n <;> rfl

@[simp] theorem skip_zero (c : Cursor) : c.skip 0 = c := rfl

@[simp] theorem rest_start (bs : List UInt8) : (start bs).rest = bs := rfl

theorem skip_skip (c : Cursor) (m n : Nat) : (c.skip m).skip n = c.skip (m + n) := by
  cases n with
  | zero => rfl
  | succ n =>
    cases m with
    | zero => simp
    | succ m => simp [skip, Nat.add_comm, Nat.add_left_comm]

@[simp] theorem skip_one_cons (o : Nat) (p : Option UInt8) (b : UInt8) (r : List UInt8) :
    (⟨o, p, b :: r⟩ : Cursor).skip 1 = ⟨o + 1, some b, r⟩ := rfl

@[simp] theorem skip_two_cons (o : Nat) (p : Option UInt8) (a b : UInt8) (r : List UInt8) :
    (⟨o, p, a :: b :: r⟩ : Cursor).skip 2 = ⟨o + 2, some b, r⟩ := rfl

@[simp] theorem offset_atOffset (bs : List UInt8) (o : Nat) : (atOffset bs o).offset = o := by
  simp [atOffset, start]

@[simp] theorem rest_atOffset (bs : List UInt8) (o : Nat) : (atOffset bs o).rest = bs.drop o := by
  simp [atOffset]

theorem atOffset_eq (bs : List UInt8) (o : Nat) :
    atOffset bs o = ⟨o, (atOffset bs o).before, bs.drop o⟩ := by
  cases o <;> simp [atOffset, start, skip]

@[simp] theorem skip_atOffset (bs : List UInt8) (o n : Nat) :
    (atOffset bs o).skip n = atOffset bs (o + n) := skip_skip _ _ _

@[simp] theorem here?_atOffset (bs : List UInt8) (o : Nat) : (atOffset bs o).here? = bs[o]? := by
  rw [here?, rest_atOffset, List.head?_drop]

@[simp] theorem before_atOffset_succ (bs : List UInt8) (o : Nat) : (atOffset bs (o + 1)).before = bs[o]? := rfl

theorem rest_skipWhile (c : Cursor) (p : UInt8 → Bool) :
    (c.skipWhile p).rest = c.rest.dropWhile p := by
  rw [skipWhile, rest_skip]
  induction c.rest with
  | nil => rfl
  | cons b r ih => by_cases h : p b <;> simp [h, ih]

theorem takeWhile_spec (l : List UInt8) (p : UInt8 → Bool) :
    (∀ i < (l.takeWhile p).length, l[i]?.any p) ∧ l[(l.takeWhile p).length]?.all (!p ·) := by
  induction l with
  | nil => simp
  | cons b r ih =>
    by_cases h : p b
    · rw [List.takeWhile_cons_of_pos h, List.length_cons]
      refine ⟨fun i hi => ?_, ih.2⟩
      cases i with
      | zero => exact h
      | succ i => exact ih.1 i (Nat.lt_of_succ_lt_succ hi)
    · simp [h]

/-- A search for the first byte that fails `p` comes to it from any offset. -/
theorem skipWhile_atOffset (bs : List UInt8) (o : Nat) (p : UInt8 → Bool) : ∃ n,
    (atOffset bs o).skipWhile p = atOffset bs n ∧ o ≤ n ∧ (∀ i, o ≤ i → i < n → bs[i]?.any p) ∧ bs[n]?.all (!p ·) := by
  obtain ⟨hp, hn⟩ := takeWhile_spec (bs.drop o) p
  refine ⟨o + ((bs.drop o).takeWhile p).length, ?_, Nat.le_add_right .., fun i hi hin => ?_, ?_⟩
  · rw [skipWhile, rest_atOffset, skip_atOffset]
  · have := hp (i - o) (by omega)
    rwa [List.getElem?_drop, Nat.add_sub_of_le hi] at this
  · rwa [List.getElem?_drop] at hn

end Cursor

end BodyLength
