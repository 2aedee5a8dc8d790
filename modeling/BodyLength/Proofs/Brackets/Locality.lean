import BodyLength.Proofs.Brackets.Opacity
import BodyLength.Proofs.Brackets.Surroundings
/-!
# A body is local to its bytes

What a search for a closing bracket comes to depends on no byte behind that bracket (`closing_congr`): the
lexer looks ahead at a slash only, and no bracket is one. So a body is the same in every text it stands in,
and a text that is cut off inside a body has no other closing brace for it (`body_local`).
-/

namespace BodyLength

namespace Brackets

variable {k : Brackets} {depth p q i : Nat} {bs bs' : List UInt8}

/-- A step that ends a search settles it. -/
theorem closing_append_of_ends {code : Option UInt8} (h : k.ends depth code) (o : Nat) (l l' : List (Nat × UInt8)) :
    k.closing depth ((code.map (o, ·)).toList ++ l) = k.closing depth ((code.map (o, ·)).toList ++ l') := by
  have hsettles : k.settles depth (code.map (o, ·)).toList := by
    obtain ⟨-, b, rfl, -⟩ := ends_iff.1 h
    show (k.ends depth (some b) || _) = true
    rw [h, Bool.true_or]
  rw [closing_append_of_settles hsettles, closing_append_of_settles hsettles]

/-- Two texts that agree up to the closing bracket have the same one. -/
theorem closing_congr (hk : k.right ≠ Byte.slash) (h : ∀ j ≤ p, bs[j]? = bs'[j]?) {s : LexState}
    (hc : k.closing depth (s.code (.atOffset bs i)) = some p) :
    k.closing depth (s.code (.atOffset bs' i)) = some p := by
  -- a step may read two bytes
  induction hn : (bs.drop i).length using Nat.strongRecOn generalizing s depth i with
  | ind n ih =>
    obtain ⟨hle, hright⟩ := SignatureMode.literalAware.place_of_closing hc
    cases hr : bs.drop i with
    | nil =>
      rw [s.code_of_nil ((Cursor.rest_atOffset ..).trans hr)] at hc
      cases hc
    | cons b r =>
      have hhead : bs[i]? = some b := by rw [← List.head?_drop, hr, List.head?_cons]
      have hafter : b = Byte.slash → bs[i + 1]? = bs'[i + 1]? := by
        rintro rfl
        have hne : i ≠ p := by
          rintro rfl
          rw [hhead, Option.some.injEq] at hright
          exact hk hright.symm
        exact h (i + 1) (by omega)
      obtain ⟨r', hr', hstep⟩ := stepAt_congr (fun j hj => h j (Nat.le_trans hj hle)) hafter hr s
      have hrest : (Cursor.atOffset bs i).rest = b :: r := (Cursor.rest_atOffset ..).trans hr
      have hrest' : (Cursor.atOffset bs' i).rest = b :: r' := (Cursor.rest_atOffset ..).trans hr'
      have hlt := s.length_rest_skip_stepAt _ hrest
      rw [s.code_of_cons hrest] at hc
      rw [s.code_of_cons hrest', hstep]
      generalize s.stepAt (.atOffset bs i) b r = step at hc hlt ⊢
      simp only [Cursor.skip_atOffset, Cursor.offset_atOffset, Cursor.rest_atOffset, hn] at hc hlt ⊢
      by_cases he : k.ends depth step.code
      · rw [← hc]
        exact closing_append_of_ends he i _ _
      · rw [Bool.not_eq_true] at he
        rw [closing_of_not_ends he] at hc ⊢
        exact ih _ hlt hc rfl

end Brackets

namespace BraceMatch

variable {bs : List UInt8} {o c : Nat}

theorem closing_drop (bs : List UInt8) (o : Nat) : Brackets.braces.closing 0 (LexState.plain.code (.atOffset bs o)) =
    (Brackets.braces.closing 0 (LexState.plain.code (.atOffset (bs.drop o) 0))).map (· + o) := by
  have hstart := SignatureMode.literalAware.closing_start .braces (.atOffset bs o)
  rwa [Cursor.rest_atOffset, Cursor.offset_atOffset] at hstart

/-! ## Main theorem -/

/-- The brace that closes a body does not depend on what stands before or behind the body, and no other
brace closes it if the text ends inside. -/
theorem body_local (h : (search .never 0 (.atOffset bs o)).1 = .closed c) :
    (∀ x y : List UInt8, (search .never 0 (.atOffset (x ++ ((bs.take (c + 1)).drop o ++ y)) x.length)).1 =
        .closed (x.length + c - o)) ∧
      ∀ n, o < n → n ≤ c → (search .never 0 (.atOffset (bs.take n) o)).1 = .unbalanced := by
  have hslash : Brackets.braces.right ≠ Byte.slash := by decide
  rw [search_eq_closed] at h
  obtain ⟨hlt, hright⟩ := SignatureMode.literalAware.place_of_closing h
  constructor
  · intro x y
    rw [closing_drop, Option.map_eq_some_iff] at h
    obtain ⟨p, hp, rfl⟩ := h
    have hagree : ∀ j ≤ p, (bs.drop (o + 1))[j]? =
        ((x ++ ((bs.take (p + (o + 1) + 1)).drop o ++ y)).drop (x.length + 1))[j]? := by
      intro j hj
      have hlen : 1 + j < ((bs.take (p + (o + 1) + 1)).drop o).length := by
        obtain ⟨hlen, -⟩ := List.getElem?_eq_some_iff.1 hright
        rw [List.length_drop, List.length_take]
        omega
      rw [List.drop_length_add_append, List.getElem?_drop, List.getElem?_drop, List.getElem?_append_left hlen,
        List.getElem?_drop, List.getElem?_take_of_lt (by omega), Nat.add_assoc]
    rw [search_eq_closed, closing_drop, Brackets.closing_congr hslash hagree hp, Option.map_some]
    congr 1
    omega
  · intro n _ hn
    rw [search_eq_unbalanced, Option.eq_none_iff_forall_ne_some]
    intro q hq
    obtain ⟨-, hbyte⟩ := SignatureMode.literalAware.place_of_closing hq
    have hqn : q < n := by
      obtain ⟨hlen, -⟩ := List.getElem?_eq_some_iff.1 hbyte
      exact Nat.lt_of_lt_of_le hlen (List.length_take_le ..)
    have hagree : ∀ j ≤ q, (bs.take n)[j]? = bs[j]? := by
      intro j hj
      exact List.getElem?_take_of_lt (Nat.lt_of_le_of_lt hj hqn)
    have hqc := Brackets.closing_congr hslash hagree hq
    rw [h, Option.some.injEq] at hqc
    omega

/-- Cuts that split an escape and the opening of a comment. -/
theorem body_local_of_hidden_braces :
    (search .never 0 (.atOffset (bytes "\x7b '\\\x7d' /* \x7d */ \x7d") 0)).1 = .closed 15 ∧
      (search .never 0 (.atOffset (bytes "/*" ++
        (((bytes "\x7b '\\\x7d' /* \x7d */ \x7d").take 16).drop 0 ++ bytes "*/")) (bytes "/*").length)).1 =
        .closed ((bytes "/*").length + 15 - 0) ∧
      (search .never 0 (.atOffset ((bytes "\x7b '\\\x7d' /* \x7d */ \x7d").take 4) 0)).1 = .unbalanced ∧
      (search .never 0 (.atOffset ((bytes "\x7b '\\\x7d' /* \x7d */ \x7d").take 8) 0)).1 = .unbalanced := by
  have h : (search .never 0 (.atOffset (bytes "\x7b '\\\x7d' /* \x7d */ \x7d") 0)).1 = .closed 15 := by decide +kernel
  obtain ⟨hmoved, hcut⟩ := body_local h
  exact ⟨h, hmoved (bytes "/*") (bytes "*/"), hcut 4 (by decide) (by decide), hcut 8 (by decide) (by decide)⟩

end BraceMatch

end BodyLength
