import BodyLength.Json.Error
/-!
# Scalars in a JSON text

A `JsonLexeme` is what reading a scalar came to: the scalar or what is wrong with it, and
what is left of the text. This module reads the words `null`, `true` and `false`.
-/

namespace BodyLength

/-- A scalar that has been read, and the text behind it with its position. -/
structure JsonLexeme where
  result : Except JsonError JsonScalar
  rest : List Char
  position : JsonPosition

namespace JsonLexeme

/-- A fault, behind which nothing is read. -/
def fault (f : JsonFault) (p : JsonPosition) : JsonLexeme := ⟨.error ⟨f, p⟩, [], p⟩

/-- Reads what is left of the word for `x`. -/
def word (x : JsonScalar) (p : JsonPosition) : List Char → List Char → JsonLexeme
  | [], s => ⟨.ok x, s, p⟩
  | _ :: _, [] => fault .endInValue p
  | w :: ws, c :: s => if c = w then word x (p.after c) ws s else fault .expectedIdent (p.afterByte c)

theorem length_rest_word (x : JsonScalar) (p : JsonPosition) (ws s : List Char) :
    (word x p ws s).rest.length ≤ s.length := by
  fun_induction word x p ws s with
  | case1 => exact Nat.le_refl _
  | case2 => simp [fault]
  | case3 p w ws s ih => exact Nat.le_succ_of_le ih
  | case4 => simp [fault]

end JsonLexeme

end BodyLength
