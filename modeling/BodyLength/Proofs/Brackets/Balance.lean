import BodyLength.Proofs.Brackets.Closing
import Mathlib.Order.Nat
import Mathlib.Tactic.ByContra
/-!
# Where a bracket closes

`Brackets.closing` keeps a depth. Here the closing bracket is described without one, by
counting brackets up to a place: it is the first place where the closing brackets outnumber
the opening ones, unless the breaker stands before it outside all inner brackets. Nothing breaks
off an uninterrupted search for the end of a body, which thus comes to the least such place
(`search_finds_least`).
-/

namespace BodyLength

namespace Brackets

/-- How often `b` occurs up to offset `p`. -/
def countTo (b : UInt8) (p : Nat) (l : List (Nat × UInt8)) : Nat := l.countP fun x => x.1 ≤ p && x.2 == b

/-- Among the bytes `l`, the one at offset `p` closes the bracket that was opened before them and
around `depth` others. -/
structure ClosesAt (k : Brackets) (depth : Nat) (l : List (Nat × UInt8)) (p : Nat) : Prop where
  outnumber : countTo k.right p l = countTo k.left p l + depth + 1
  least : ∀ q < p, countTo k.right q l ≠ countTo k.left q l + depth + 1
  unbroken : ∀ q < p, ∀ b, k.breaker = some b → (q, b) ∈ l → countTo k.right q l ≠ countTo k.left q l + depth

variable {k : Brackets} {depth p q : Nat} {b : UInt8} {l : List (Nat × UInt8)}

theorem countTo_eq_zero (b : UInt8) (h : ∀ x ∈ l, p < x.1) : countTo b p l = 0 := by
  rw [countTo, List.countP_eq_zero]
  intro x hx
  have := h x hx
  simp only [Bool.and_eq_true, decide_eq_true_eq]
  omega

theorem countTo_cons (a : UInt8) (h : q ≤ p) :
    countTo a p ((q, b) :: l) = countTo a p l + if b = a then 1 else 0 := by
  rw [countTo, List.countP_cons, countTo]
  simp [h]

theorem ClosesAt.exists_le (h : k.ClosesAt depth l p) : ∃ x ∈ l, x.1 ≤ p := by
  by_contra hn
  simp only [not_exists, not_and, Nat.not_le] at hn
  have := h.outnumber
  rw [countTo_eq_zero _ hn, countTo_eq_zero _ hn] at this
  omega

theorem ClosesAt.unique (h : k.ClosesAt depth l p) (h' : k.ClosesAt depth l q) : p = q := by
  rcases Nat.lt_trichotomy p q with hlt | heq | hlt
  · exact absurd h.outnumber (h'.least p hlt)
  · exact heq
  · exact absurd h'.outnumber (h.least q hlt)

/-! ## The next byte -/

section
variable (hq : ∀ x ∈ l, q < x.1)
include hq

theorem lt_of_mem_cons (h : p < q) : ∀ x ∈ (q, b) :: l, p < x.1 := by
  rintro x hx
  rcases List.mem_cons.1 hx with rfl | hx
  · exact h
  · exact Nat.lt_trans h (hq x hx)

theorem ClosesAt.le (h : k.ClosesAt depth ((q, b) :: l) p) : q ≤ p := by
  obtain ⟨x, hx, hp⟩ := h.exists_le
  rcases List.mem_cons.1 hx with rfl | hx
  · exact hp
  · exact Nat.le_of_lt (Nat.lt_of_lt_of_le (hq x hx) hp)

/-- It closes the bracket, if no other is to be closed first. -/
theorem closesAt_cons_right : k.ClosesAt 0 ((q, k.right) :: l) p ↔ p = q := by
  have hc : k.ClosesAt 0 ((q, k.right) :: l) q := by
    refine ⟨?_, fun p hp => ?_, fun p hp b _ hm => ?_⟩
    · rw [countTo_cons _ (Nat.le_refl q), countTo_cons _ (Nat.le_refl q), countTo_eq_zero _ hq, countTo_eq_zero _ hq,
        if_pos rfl, if_neg k.left_ne_right.symm]
    · rw [countTo_eq_zero _ (lt_of_mem_cons hq hp), countTo_eq_zero _ (lt_of_mem_cons hq hp)]
      omega
    · exact absurd (lt_of_mem_cons hq hp _ hm) (Nat.lt_irrefl p)
  exact ⟨fun h => h.unique hc, fun h => h ▸ hc⟩

/-- It ends the search in vain. -/
theorem not_closesAt_cons_breaker (hb : k.breaker = some b) : ¬ k.ClosesAt 0 ((q, b) :: l) p := by
  intro h
  have hl : b ≠ k.left := fun he => k.breaker_ne_left (he ▸ hb)
  have hr : b ≠ k.right := fun he => k.breaker_ne_right (he ▸ hb)
  have hz (a : UInt8) (ha : b ≠ a) : countTo a q ((q, b) :: l) = 0 := by
    rw [countTo_cons _ (Nat.le_refl q), countTo_eq_zero _ hq, if_neg ha]
  rcases Nat.lt_or_eq_of_le (h.le hq) with hlt | rfl
  · exact h.unbroken q hlt b hb List.mem_cons_self (by rw [hz _ hl, hz _ hr])
  · have := h.outnumber
    rw [hz _ hl, hz _ hr] at this
    omega

omit hq in
/-- What `b` changes in the counts, it changes in the depth. -/
theorem outnumber_cons (he : k.ends depth (some b) = false) (h : q ≤ p) (n : Nat) :
    countTo k.right p ((q, b) :: l) = countTo k.left p ((q, b) :: l) + depth + n ↔
      countTo k.right p l = countTo k.left p l + k.depthAfter depth (some b) + n := by
  rw [countTo_cons _ h, countTo_cons _ h, depthAfter]
  simp only [Option.some.injEq]
  by_cases hl : b = k.left
  · rw [if_pos hl, if_pos hl, if_neg (hl ▸ k.left_ne_right)]
    omega
  by_cases hr : b = k.right
  · have hd : depth ≠ 0 := by
      rintro rfl
      simp [ends, hr] at he
    rw [if_neg hl, if_neg hl, if_pos hr, if_pos hr]
    omega
  · rw [if_neg hl, if_neg hl, if_neg hr, if_neg hr]
    omega

/-- It only changes the depth. -/
theorem closesAt_cons (he : k.ends depth (some b) = false) :
    k.ClosesAt depth ((q, b) :: l) p ↔ k.ClosesAt (k.depthAfter depth (some b)) l p := by
  constructor
  · intro h
    refine ⟨(outnumber_cons he (h.le hq) 1).1 h.outnumber, fun r hr => ?_, fun r hr a ha hm => ?_⟩
    · by_cases hrq : q ≤ r
      · exact fun heq => h.least r hr ((outnumber_cons he hrq 1).2 heq)
      · -- nothing counts before `q`
        have hz : ∀ x ∈ l, r < x.1 := fun x hx => Nat.lt_trans (Nat.lt_of_not_le hrq) (hq x hx)
        rw [countTo_eq_zero _ hz, countTo_eq_zero _ hz]
        omega
    · exact fun heq => h.unbroken r hr a ha (List.mem_cons_of_mem _ hm)
        ((outnumber_cons he (Nat.le_of_lt (hq _ hm)) 0).2 heq)
  · intro h
    obtain ⟨x, hx, hp⟩ := h.exists_le
    have hqp : q ≤ p := Nat.le_of_lt (Nat.lt_of_lt_of_le (hq x hx) hp)
    refine ⟨(outnumber_cons he hqp 1).2 h.outnumber, fun r hr => ?_, fun r hr a ha hm => ?_⟩
    · by_cases hrq : q ≤ r
      · exact fun heq => h.least r hr ((outnumber_cons he hrq 1).1 heq)
      · rw [countTo_eq_zero _ (lt_of_mem_cons hq (Nat.lt_of_not_le hrq)),
          countTo_eq_zero _ (lt_of_mem_cons hq (Nat.lt_of_not_le hrq))]
        omega
    · rcases List.mem_cons.1 hm with heq | hm
      · -- the breaker is `b` itself, so there are other brackets to close first
        cases heq
        have hd : depth ≠ 0 := by
          rintro rfl
          simp [ends, ha] at he
        have hl : b ≠ k.left := fun heq => k.breaker_ne_left (heq ▸ ha)
        have hr : b ≠ k.right := fun heq => k.breaker_ne_right (heq ▸ ha)
        rw [countTo_cons _ (Nat.le_refl q), countTo_cons _ (Nat.le_refl q), countTo_eq_zero _ hq,
          countTo_eq_zero _ hq, if_neg hl, if_neg hr]
        omega
      · exact fun heq => h.unbroken r hr a ha hm ((outnumber_cons he (Nat.le_of_lt (hq _ hm)) 0).1 heq)

end

/-- The search finds the closing bracket if and only if there is one. -/
theorem closing_eq_some (hl : l.Pairwise (·.1 < ·.1)) : k.closing depth l = some p ↔ k.ClosesAt depth l p := by
  induction l generalizing depth with
  | nil =>
    constructor
    · intro h
      cases h
    · intro h
      obtain ⟨x, hx, -⟩ := h.exists_le
      cases hx
  | cons x l ih =>
    obtain ⟨q, b⟩ := x
    obtain ⟨hq, hl⟩ := List.pairwise_cons.1 hl
    rw [closing]
    by_cases he : k.ends depth (some b)
    · rw [if_pos he]
      obtain ⟨rfl, _, heq, he⟩ := ends_iff.1 he
      cases heq
      by_cases hb : b = k.right
      · rw [if_pos hb, hb, closesAt_cons_right hq, Option.some.injEq]
        exact eq_comm
      · rw [if_neg hb]
        constructor
        · intro h
          cases h
        · intro h
          exact absurd h (not_closesAt_cons_breaker hq (he.resolve_left hb))
    · rw [if_neg he, ih hl, closesAt_cons hq (by simpa using he)]

end Brackets

/-! ## Bodies -/

namespace BraceMatch

/-- Of the code behind the brace at offset `o` and up to offset `p`, one more brace closes than opens. The
lexer starts afresh behind that brace. -/
def Outnumbered (bs : List UInt8) (o p : Nat) : Prop :=
  Brackets.countTo Byte.rightBrace p (LexState.plain.code (.atOffset bs (o + 1))) =
    Brackets.countTo Byte.leftBrace p (LexState.plain.code (.atOffset bs (o + 1))) + 1

instance (bs : List UInt8) (o p : Nat) : Decidable (Outnumbered bs o p) := inferInstanceAs (Decidable (_ = _))

variable {bs : List UInt8} {o p : Nat}

theorem lt_of_mem_code {x : Nat × UInt8} (h : x ∈ LexState.plain.code (.atOffset bs (o + 1))) : o < x.1 := by
  have hle := (SignatureMode.literalAware.counted_ascending .plain (.atOffset bs (o + 1))).2 x h
  rwa [Cursor.offset_atOffset] at hle

theorem Outnumbered.lt (h : Outnumbered bs o p) : o < p := by
  apply Nat.lt_of_not_le
  intro hle
  have hzero (b : UInt8) : Brackets.countTo b p (LexState.plain.code (.atOffset bs (o + 1))) = 0 :=
    Brackets.countTo_eq_zero b fun x hx => Nat.lt_of_le_of_lt hle (lt_of_mem_code hx)
  rw [Outnumbered, hzero, hzero] at h
  cases h

/-- Nothing breaks a search for a closing brace off. -/
theorem closesAt_iff_isLeast : Brackets.braces.ClosesAt 0 (LexState.plain.code (.atOffset bs (o + 1))) p ↔
    IsLeast {q | o < q ∧ Outnumbered bs o q} p := by
  constructor
  · intro h
    have hp : Outnumbered bs o p := h.outnumber
    refine ⟨⟨hp.lt, hp⟩, ?_⟩
    rintro q ⟨-, hq⟩
    exact Nat.le_of_not_lt fun hlt => h.least q hlt hq
  · rintro ⟨⟨-, hp⟩, hleast⟩
    refine ⟨hp, ?_, ?_⟩
    · intro q hlt (hq : Outnumbered bs o q)
      exact Nat.not_le.2 hlt (hleast ⟨hq.lt, hq⟩)
    · rintro _ _ _ ⟨⟩

/-- An uninterrupted search from the brace at offset `o` comes to the first place behind it where one
more brace of code has closed than opened. That place holds a closing brace. If there is no such place,
the body is unbalanced. -/
theorem search_finds_least (bs : List UInt8) (o : Nat) :
    (∀ c, (search .never 0 (.atOffset bs o)).1 = .closed c ↔ IsLeast {p | o < p ∧ Outnumbered bs o p} c) ∧
      (∀ c, (search .never 0 (.atOffset bs o)).1 = .closed c →
        bs[c]? = some Byte.rightBrace ∧ o < c ∧ c < bs.length) ∧
      ((search .never 0 (.atOffset bs o)).1 = .unbalanced ↔ ∀ p, o < p → ¬ Outnumbered bs o p) := by
  have hpairs := (SignatureMode.literalAware.counted_ascending .plain (.atOffset bs (o + 1))).1
  have hclosed (c : Nat) : (search .never 0 (.atOffset bs o)).1 = .closed c ↔
      IsLeast {p | o < p ∧ Outnumbered bs o p} c := by
    rw [search_eq_closed, ← closesAt_iff_isLeast]
    exact Brackets.closing_eq_some hpairs
  refine ⟨hclosed, ?_, ?_⟩
  · intro c hc
    obtain ⟨hlt, hbyte⟩ := SignatureMode.literalAware.place_of_closing (search_eq_closed.1 hc)
    exact ⟨hbyte, hlt, (List.getElem?_eq_some_iff.1 hbyte).1⟩
  · rw [search_eq_unbalanced, Option.eq_none_iff_forall_ne_some]
    constructor
    · intro hnone p hlt hp
      exact hnone _ (search_eq_closed.1 ((hclosed _).2 (Nat.isLeast_find ⟨p, hlt, hp⟩)))
    · intro hno c hc
      obtain ⟨⟨hlt, hp⟩, -⟩ := (hclosed c).1 (search_eq_closed.2 hc)
      exact hno c hlt hp

end BraceMatch

end BodyLength
