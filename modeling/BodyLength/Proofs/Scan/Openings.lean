import BodyLength.Proofs.Brackets.Closing
import BodyLength.Scan.Basic
/-!
# Where the search for signatures looks

The search stops at each identifier that has a parenthesis behind it and looks for the end of the
list that opens there. `openings` lists all these places, also those where the list does not end.
The signatures are the openings whose lists end (`allFrom_eq`), so what holds of two lists of
openings holds of the signatures.
-/

namespace BodyLength

/-- An identifier with a parenthesis directly behind it. -/
structure Opening where
  /-- The first byte of the identifier. -/
  first : Cursor
  /-- The place behind the parenthesis. -/
  inside : Cursor

/-- The signature whose parameter list opens here, if that ends. -/
def Opening.signature? (mode : SignatureMode) (a : Opening) : Option Signature :=
  (mode.close? a.inside).map (⟨a.first, ·⟩)

namespace Signature

theorem length_rest_close?_getD (mode : SignatureMode) (c : Cursor) :
    ((mode.close? c).getD c).rest.length ≤ c.rest.length := by
  cases h : mode.close? c with
  | none => exact Nat.le_refl _
  | some behind => exact Nat.le_of_lt (length_rest_close? h)

/-- The openings from a place on. The search goes on behind the list of an opening, or inside if that
does not end. -/
def openings (mode : SignatureMode) (c : Cursor) : List Opening :=
  match _h : (identifierFrom c).rest with
  | [] => []
  | _ :: _ =>
    let paren := (identifierFrom c).skipWhile Byte.isIdentifier
    if paren.here? = some Byte.leftParen then
      ⟨identifierFrom c, paren.skip 1⟩ :: openings mode ((mode.close? (paren.skip 1)).getD (paren.skip 1))
    else openings mode paren
termination_by c.rest.length
decreasing_by
  · have := length_rest_behind_identifier c _h
    have := length_rest_close?_getD mode (((identifierFrom c).skipWhile Byte.isIdentifier).skip 1)
    simp only [Cursor.rest_skip, List.length_drop] at this
    omega
  · exact length_rest_behind_identifier c _h

section
variable (mode : SignatureMode) {c : Cursor}

theorem openings_of_nil (h : (identifierFrom c).rest = []) : openings mode c = [] := by
  rw [openings]
  split
  · rfl
  · simp_all

theorem openings_of_paren (h : (identifierFrom c).rest ≠ [])
    (hp : ((identifierFrom c).skipWhile Byte.isIdentifier).here? = some Byte.leftParen) :
    openings mode c = ⟨identifierFrom c, ((identifierFrom c).skipWhile Byte.isIdentifier).skip 1⟩ ::
      openings mode ((mode.close? (((identifierFrom c).skipWhile Byte.isIdentifier).skip 1)).getD
        (((identifierFrom c).skipWhile Byte.isIdentifier).skip 1)) := by
  rw [openings]
  split
  · contradiction
  · exact if_pos hp

theorem openings_of_not_paren (h : (identifierFrom c).rest ≠ [])
    (hp : ((identifierFrom c).skipWhile Byte.isIdentifier).here? ≠ some Byte.leftParen) :
    openings mode c = openings mode ((identifierFrom c).skipWhile Byte.isIdentifier) := by
  rw [openings]
  split
  · contradiction
  · exact if_neg hp

/-- Where the first identifier is decides. -/
theorem openings_congr {d : Cursor} (h : identifierFrom c = identifierFrom d) : openings mode c = openings mode d := by
  rw [openings, openings, h]

/-! ## The signatures -/

theorem next_of_nil (h : (identifierFrom c).rest = []) : next mode c = (none, identifierFrom c) := by
  rw [next]
  split
  · rfl
  · simp_all

theorem next_of_paren (h : (identifierFrom c).rest ≠ [])
    (hp : ((identifierFrom c).skipWhile Byte.isIdentifier).here? = some Byte.leftParen) :
    next mode c = match mode.close? (((identifierFrom c).skipWhile Byte.isIdentifier).skip 1) with
      | some behind => (some ⟨identifierFrom c, behind⟩, behind)
      | none => next mode (((identifierFrom c).skipWhile Byte.isIdentifier).skip 1) := by
  rw [next]
  split
  · contradiction
  · exact if_pos hp

theorem next_of_not_paren (h : (identifierFrom c).rest ≠ [])
    (hp : ((identifierFrom c).skipWhile Byte.isIdentifier).here? ≠ some Byte.leftParen) :
    next mode c = next mode ((identifierFrom c).skipWhile Byte.isIdentifier) := by
  rw [next]
  split
  · contradiction
  · exact if_neg hp

theorem allFrom_of_none {d : Cursor} (h : next mode c = (none, d)) : allFrom mode c = [] := by
  rw [allFrom]
  split <;> simp_all

theorem allFrom_of_some {x : Signature} {d : Cursor} (h : next mode c = (some x, d)) :
    allFrom mode c = x :: allFrom mode d := by
  rw [allFrom]
  split <;> simp_all

theorem allFrom_congr {d : Cursor} (h : next mode c = next mode d) : allFrom mode c = allFrom mode d := by
  rw [allFrom, allFrom, h]

end

/-- The signatures are the openings whose parameter lists end. -/
theorem allFrom_eq (mode : SignatureMode) (c : Cursor) :
    allFrom mode c = (openings mode c).filterMap (·.signature? mode) := by
  fun_induction openings mode c with
  | case1 c h =>
    rw [allFrom_of_none mode (next_of_nil mode h), List.filterMap_nil]
  | case2 c b r h paren hp ih =>
    have hne : (identifierFrom c).rest ≠ [] := by simp [h]
    have hnext := next_of_paren mode hne hp
    rw [List.filterMap_cons, Opening.signature?]
    cases hc : mode.close? (paren.skip 1) with
    | some behind =>
      rw [hc] at hnext ih
      rw [allFrom_of_some mode hnext]
      exact congrArg (_ :: ·) ih
    | none =>
      rw [hc] at hnext ih
      rw [allFrom_congr mode hnext]
      exact ih
  | case3 c b r h paren hp ih =>
    have hne : (identifierFrom c).rest ≠ [] := by simp [h]
    rw [allFrom_congr mode (next_of_not_paren mode hne hp)]
    exact ih

end Signature

theorem signatures_eq (mode : SignatureMode) (text : String) : signatures mode text =
    (Signature.openings mode (.start (bytes text))).filterMap (·.signature? mode) :=
  Signature.allFrom_eq ..

end BodyLength
