import BodyLength.Json.Lexeme
/-!
# Numbers in a JSON text

A number without fraction and exponent is an integer if it fits 64 bits, signed or unsigned.
All others are in floating point, of which the first digits count, as many as fit 64 bits.
-/

namespace BodyLength

namespace JsonLexeme

/-- The greatest integer of 64 bits. -/
def maxWord : Nat := UInt64.size - 1

/-- Reads digits behind the digits of `m` as long as the number fits 64 bits. Gives it, how
many digits were read in all, `n` of them before, and what is left. -/
def digits (m n : Nat) : List Char → Nat × Nat × List Char
  | [] => (m, n, [])
  | c :: s =>
    if c.isDigit ∧ 10 * m + (c.toNat - 48) ≤ maxWord then
      digits (10 * m + (c.toNat - 48)) (n + 1) s
    else (m, n, c :: s)

theorem length_digits (m n : Nat) (s : List Char) : (digits m n s).2.2.length ≤ s.length := by
  fun_induction digits m n s with
  | case1 => exact Nat.le_refl _
  | case2 m n c s _ ih => exact Nat.le_succ_of_le ih
  | case3 => exact Nat.le_refl _

/-- The number `m * 10 ^ e`, in floating point. -/
def float (negative : Bool) (m : Nat) (e : Int) (s : List Char) (p : JsonPosition) : JsonLexeme :=
  match scaledFloat? m.toUInt64 e with
  | none => fault .numberOutOfRange p
  | some x => ⟨.ok (.float (if negative then -x else x)), s, p⟩

theorem length_rest_float (negative : Bool) (m : Nat) (e : Int) (s : List Char)
    (p : JsonPosition) : (float negative m e s p).rest.length ≤ s.length := by
  unfold float
  split <;> simp [fault]

/-- The least exponent that is too large to be kept. -/
def exponentLimit : Nat := UInt32.size / 2

/-- Reads the digits of an exponent, of which the number `k` has been read. -/
def exponentDigits (negative : Bool) (m : Nat) (e : Int) (positive : Bool) (k : Nat)
    (p : JsonPosition) : List Char → JsonLexeme
  | [] => float negative m (if positive then e + k else e - k) [] p
  | c :: s =>
    if c.isDigit then
      let k' := 10 * k + (c.toNat - 48)
      if exponentLimit ≤ k' then
        if m ≠ 0 ∧ positive then fault .numberOutOfRange (p.right 1)
        else
          let more := (s.takeWhile Char.isDigit).length
          ⟨.ok (.float (if negative then -0.0 else 0.0)), s.drop more, p.right (1 + more)⟩
      else exponentDigits negative m e positive k' (p.right 1) s
    else float negative m (if positive then e + k else e - k) (c :: s) p

theorem length_rest_exponentDigits (negative : Bool) (m : Nat) (e : Int) (positive : Bool)
    (k : Nat) (p : JsonPosition) (s : List Char) :
    (exponentDigits negative m e positive k p s).rest.length ≤ s.length := by
  fun_induction exponentDigits negative m e positive k p s with
  | case1 => exact length_rest_float ..
  | case2 => simp [fault]
  | case3 =>
    simp only [List.length_drop, List.length_cons]
    omega
  | case4 k p c s _ k' _ ih => exact Nat.le_succ_of_le ih
  | case5 => exact length_rest_float ..

/-- Reads an exponent, from behind its sign. -/
def unsignedExponent (negative : Bool) (m : Nat) (e : Int) (positive : Bool) (p : JsonPosition) :
    List Char → JsonLexeme
  | [] => fault .endInValue p
  | c :: s =>
    if c.isDigit then exponentDigits negative m e positive (c.toNat - 48) (p.right 1) s
    else fault .invalidNumber (p.afterByte c)

theorem length_rest_unsignedExponent (negative : Bool) (m : Nat) (e : Int) (positive : Bool)
    (p : JsonPosition) (s : List Char) :
    (unsignedExponent negative m e positive p s).rest.length ≤ s.length := by
  cases s with
  | nil => simp [unsignedExponent, fault]
  | cons c s =>
    have := length_rest_exponentDigits negative m e positive (c.toNat - 48) (p.right 1) s
    simp only [unsignedExponent, List.length_cons]
    split
    · omega
    · simp [fault]

/-- Reads an exponent, from behind its letter. -/
def exponent (negative : Bool) (m : Nat) (e : Int) (p : JsonPosition) : List Char → JsonLexeme
  | '+' :: s => unsignedExponent negative m e true (p.right 1) s
  | '-' :: s => unsignedExponent negative m e false (p.right 1) s
  | s => unsignedExponent negative m e true p s

theorem length_rest_exponent (negative : Bool) (m : Nat) (e : Int) (p : JsonPosition)
    (s : List Char) : (exponent negative m e p s).rest.length ≤ s.length := by
  unfold exponent
  split
  · exact Nat.le_succ_of_le (length_rest_unsignedExponent ..)
  · exact Nat.le_succ_of_le (length_rest_unsignedExponent ..)
  · exact length_rest_unsignedExponent ..

/-- Reads an exponent if there is one. -/
def exponent? (negative : Bool) (m : Nat) (e : Int) (p : JsonPosition) : List Char → JsonLexeme
  | 'e' :: s => exponent negative m e (p.right 1) s
  | 'E' :: s => exponent negative m e (p.right 1) s
  | s => float negative m e s p

theorem length_rest_exponent? (negative : Bool) (m : Nat) (e : Int) (p : JsonPosition)
    (s : List Char) : (exponent? negative m e p s).rest.length ≤ s.length := by
  unfold exponent?
  split
  · exact Nat.le_succ_of_le (length_rest_exponent ..)
  · exact Nat.le_succ_of_le (length_rest_exponent ..)
  · exact length_rest_float ..

/-- Reads a fraction, from behind the point. Digits that no longer fit are ignored. -/
def fraction (negative : Bool) (m : Nat) (e : Int) (p : JsonPosition) (s : List Char) :
    JsonLexeme :=
  let (m', n, s') := digits m 0 s
  let ignored := (s'.takeWhile Char.isDigit).length
  if n = 0 ∧ ignored = 0 then
    match s with
    | [] => fault .endInValue p
    | c :: _ => fault .invalidNumber (p.afterByte c)
  else exponent? negative m' (e - n) (p.right (n + ignored)) (s'.drop ignored)

theorem length_rest_fraction (negative : Bool) (m : Nat) (e : Int) (p : JsonPosition)
    (s : List Char) : (fraction negative m e p s).rest.length ≤ s.length := by
  have := length_digits m 0 s
  simp only [fraction]
  split
  · split <;> simp [fault]
  · refine Nat.le_trans (length_rest_exponent? ..) ?_
    simp only [List.length_drop]
    exact Nat.le_trans (Nat.sub_le ..) this

/-- The integer with the digits of `m`; a negative one that does not fit 64 bits, and negative
zero, are in floating point. -/
def integer (negative : Bool) (m : Nat) (s : List Char) (p : JsonPosition) : JsonLexeme :=
  if negative then
    if 0 < m ∧ m ≤ UInt64.size / 2 then ⟨.ok (.integer (-m)), s, p⟩
    else ⟨.ok (.float (-m.toUInt64.toFloat)), s, p⟩
  else ⟨.ok (.integer m), s, p⟩

theorem rest_integer (negative : Bool) (m : Nat) (s : List Char) (p : JsonPosition) :
    (integer negative m s p).rest = s := by
  unfold integer
  repeat' split
  all_goals rfl

/-- Reads what follows the digits before the point, which are those of `m` and `e` more that
did not fit. -/
def behindWhole (negative : Bool) (m e : Nat) (p : JsonPosition) : List Char → JsonLexeme
  | '.' :: s => fraction negative m e (p.right 1) s
  | 'e' :: s => exponent negative m e (p.right 1) s
  | 'E' :: s => exponent negative m e (p.right 1) s
  | s => if e = 0 then integer negative m s p else float negative m e s p

theorem length_rest_behindWhole (negative : Bool) (m e : Nat) (p : JsonPosition)
    (s : List Char) : (behindWhole negative m e p s).rest.length ≤ s.length := by
  unfold behindWhole
  split
  · exact Nat.le_succ_of_le (length_rest_fraction ..)
  · exact Nat.le_succ_of_le (length_rest_exponent ..)
  · exact Nat.le_succ_of_le (length_rest_exponent ..)
  · split
    · simp [rest_integer]
    · exact length_rest_float ..

/-- Reads a number, from behind its sign. -/
def number (negative : Bool) (p : JsonPosition) : List Char → JsonLexeme
  | [] => fault .endInValue p
  | c :: s =>
    if c = '0' then
      if s.head?.any Char.isDigit then fault .invalidNumber (p.right 2)
      else behindWhole negative 0 0 (p.right 1) s
    else if c.isDigit then
      let (m, n, s) := digits (c.toNat - 48) 1 s
      -- The digits that do not fit only raise the exponent.
      let e := (s.takeWhile Char.isDigit).length
      behindWhole negative m e (p.right (n + e)) (s.drop e)
    else fault .invalidNumber (p.afterByte c)

/-- A number takes a character at least. -/
theorem length_rest_number (negative : Bool) (p : JsonPosition) (c : Char) (s : List Char) :
    (number negative p (c :: s)).rest.length ≤ s.length := by
  have := length_digits (c.toNat - 48) 1 s
  simp only [number]
  split
  · split
    · simp [fault]
    · exact length_rest_behindWhole ..
  · split
    · refine Nat.le_trans (length_rest_behindWhole ..) ?_
      simp only [List.length_drop]
      exact Nat.le_trans (Nat.sub_le ..) this
    · simp [fault]

end JsonLexeme

end BodyLength
