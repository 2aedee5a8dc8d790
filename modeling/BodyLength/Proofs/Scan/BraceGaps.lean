import BodyLength.Scan.Body
import Mathlib.Computability.RegularExpressions
import Mathlib.Data.List.TakeWhile
/-!
# What may stand before an opening brace

`BracePlacement.gap` says as a regular expression what may stand between a parameter list and the opening brace
of its body. The search for the brace takes as many blanks as there are, on both sides of the newline, and never
has to give one back, since neither a newline nor a brace is a blank. So it finds a brace behind everything that
the expression allows (`locate?_of_gap`) and behind nothing else (`gap_of_locate?`).
-/

namespace BodyLength

namespace BracePlacement

open RegularExpression (char star)

/-- Blanks, any number of them. -/
def blanks : RegularExpression UInt8 := star (char Byte.space + char Byte.tab + char Byte.carriageReturn)

/-- What may stand before the opening brace. -/
def gap : BracePlacement → RegularExpression UInt8
  | nextLine => char Byte.newline
  | lenient => blanks * (1 + char Byte.newline * blanks)

/-- The brace at `p` opens the body of a parameter list that ends before `i`. -/
structure OpensAt (placement : BracePlacement) (bs : List UInt8) (i p : Nat) : Prop where
  le : i ≤ p
  brace : bs[p]? = some Byte.leftBrace
  gap : (bs.drop i).take (p - i) ∈ placement.gap.matches'

instance (placement : BracePlacement) (bs : List UInt8) (i p : Nat) : Decidable (placement.OpensAt bs i p) :=
  decidable_of_iff (i ≤ p ∧ bs[p]? = some Byte.leftBrace ∧ (bs.drop i).take (p - i) ∈ placement.gap.matches')
    ⟨fun ⟨hle, hbrace, hgap⟩ => ⟨hle, hbrace, hgap⟩, fun h => ⟨h.le, h.brace, h.gap⟩⟩

variable {placement : BracePlacement} {bs w : List UInt8} {c d : Cursor} {i p : Nat}

/-! ## The texts that an expression allows -/

theorem mem_blanks_iff : w ∈ blanks.matches' ↔ ∀ b ∈ w, Byte.isBlank b := by
  rw [blanks, RegularExpression.matches'_star, Language.mem_kstar]
  constructor
  · rintro ⟨ws, rfl, hws⟩ b hb
    obtain ⟨v, hv, hb⟩ := List.mem_flatten.1 hb
    rcases hws v hv with (rfl | rfl) | rfl <;> rw [List.mem_singleton.1 hb] <;> rfl
  · intro hw
    refine ⟨w.map ([·]), by simp [← List.flatMap_def], ?_⟩
    intro v hv
    obtain ⟨b, hb, rfl⟩ := List.mem_map.1 hv
    have hblank := hw b hb
    simp only [Byte.isBlank, Bool.or_eq_true, beq_iff_eq] at hblank
    rcases hblank with (rfl | rfl) | rfl
    · exact .inl (.inl rfl)
    · exact .inl (.inr rfl)
    · exact .inr rfl

theorem mem_gap_nextLine_iff : w ∈ nextLine.gap.matches' ↔ w = [Byte.newline] := Iff.rfl

theorem mem_gap_lenient_iff : w ∈ lenient.gap.matches' ↔ ∃ u, (∀ b ∈ u, Byte.isBlank b) ∧
    (w = u ∨ ∃ v, (∀ b ∈ v, Byte.isBlank b) ∧ w = u ++ Byte.newline :: v) := by
  rw [gap, RegularExpression.matches'_mul, RegularExpression.matches'_add, RegularExpression.matches'_mul,
    Language.mem_mul]
  simp only [mem_blanks_iff]
  constructor
  · rintro ⟨u, hu, _, rfl | ⟨_, rfl, v, hv, rfl⟩, rfl⟩
    · exact ⟨u, hu, .inl (List.append_nil u)⟩
    · exact ⟨u, hu, .inr ⟨v, mem_blanks_iff.1 hv, rfl⟩⟩
  · rintro ⟨u, hu, rfl | ⟨v, hv, rfl⟩⟩
    · exact ⟨w, hu, [], .inl rfl, List.append_nil w⟩
    · exact ⟨u, hu, Byte.newline :: v, .inr ⟨[Byte.newline], rfl, v, mem_blanks_iff.2 hv, rfl⟩, rfl⟩

/-! ## Blanks and what follows them -/

theorem exists_blanks (c : Cursor) : ∃ u r, c.rest = u ++ r ∧ (∀ b ∈ u, Byte.isBlank b) ∧
    c.skipWhile Byte.isBlank = c.skip u.length :=
  ⟨c.rest.takeWhile Byte.isBlank, c.rest.dropWhile Byte.isBlank, List.takeWhile_append_dropWhile.symm,
    fun _ hb => List.mem_takeWhile_imp hb, rfl⟩

theorem skipWhile_isBlank_eq_skip {u r : List UInt8} {b : UInt8} (hc : c.rest = u ++ b :: r)
    (hu : ∀ b ∈ u, Byte.isBlank b) (hb : Byte.isBlank b = false) : c.skipWhile Byte.isBlank = c.skip u.length := by
  rw [Cursor.skipWhile, hc, List.takeWhile_append_of_pos hu, List.takeWhile_cons_of_neg (Bool.eq_false_iff.1 hb),
    List.append_nil]

section
variable {u v r : List UInt8}

theorem here?_skip_append (hc : c.rest = u ++ r) : (c.skip u.length).here? = r.head? := by
  rw [Cursor.here?, Cursor.rest_skip, hc, List.drop_left]

theorem rest_behind_newline (hc : c.rest = u ++ Byte.newline :: r) : ((c.skip u.length).skip 1).rest = r := by
  rw [Cursor.rest_skip, Cursor.rest_skip, hc, List.drop_left]
  rfl

theorem skip_behind_newline (c : Cursor) (u v : List UInt8) :
    ((c.skip u.length).skip 1).skip v.length = c.skip (u ++ Byte.newline :: v).length := by
  rw [Cursor.skip_skip, Cursor.skip_skip, List.length_append, List.length_cons, Nat.add_comm 1]

end

/-! ## The search -/

theorem gap_of_locate? (h : placement.locate? c = some d) : ∃ w r, c.rest = w ++ Byte.leftBrace :: r ∧
    w ∈ placement.gap.matches' ∧ d = c.skip w.length := by
  cases placement with
  | nextLine =>
    rw [locate?, Option.ite_none_right_eq_some] at h
    obtain ⟨⟨hn, hb⟩, hd⟩ := h
    obtain ⟨r, hr⟩ := List.head?_eq_some_iff.1 hn
    rw [Cursor.here?, Cursor.rest_skip, hr] at hb
    obtain ⟨t, rfl⟩ := List.head?_eq_some_iff.1 hb
    exact ⟨[Byte.newline], t, hr, mem_gap_nextLine_iff.2 rfl, (Option.some.inj hd).symm⟩
  | lenient =>
    obtain ⟨u, r, hc, hu, hskip⟩ := exists_blanks c
    simp only [locate?, hskip, here?_skip_append hc] at h
    split at h
    case isTrue hn =>
      -- the newline has been read, so there may be blanks once more
      obtain ⟨r, rfl⟩ := List.head?_eq_some_iff.1 hn
      obtain ⟨v, s, hv, hblank, hskip'⟩ := exists_blanks ((c.skip u.length).skip 1)
      rw [hskip', here?_skip_append hv, Option.ite_none_right_eq_some] at h
      obtain ⟨hb, hd⟩ := h
      obtain ⟨t, rfl⟩ := List.head?_eq_some_iff.1 hb
      refine ⟨u ++ Byte.newline :: v, t, ?_, mem_gap_lenient_iff.2 ⟨u, hu, .inr ⟨v, hblank, rfl⟩⟩, ?_⟩
      · rw [hc, (rest_behind_newline hc).symm.trans hv, List.append_assoc]
        rfl
      · rw [← Option.some.inj hd, skip_behind_newline]
    case isFalse =>
      rw [here?_skip_append hc, Option.ite_none_right_eq_some] at h
      obtain ⟨hb, hd⟩ := h
      obtain ⟨t, rfl⟩ := List.head?_eq_some_iff.1 hb
      exact ⟨u, t, hc, mem_gap_lenient_iff.2 ⟨u, hu, .inl rfl⟩, (Option.some.inj hd).symm⟩

theorem locate?_of_gap {r : List UInt8} (hc : c.rest = w ++ Byte.leftBrace :: r)
    (hw : w ∈ placement.gap.matches') : placement.locate? c = some (c.skip w.length) := by
  have hb : (c.skip w.length).here? = some Byte.leftBrace := here?_skip_append hc
  cases placement with
  | nextLine =>
    obtain rfl := mem_gap_nextLine_iff.1 hw
    have hn : c.here? = some Byte.newline := congrArg List.head? hc
    exact if_pos ⟨hn, hb⟩
  | lenient =>
    obtain ⟨u, hu, rfl | ⟨v, hv, rfl⟩⟩ := mem_gap_lenient_iff.1 hw
    · have hskip := skipWhile_isBlank_eq_skip hc hu rfl
      have hn : (c.skip w.length).here? ≠ some Byte.newline := by
        rw [hb]
        decide
      simp only [locate?, hskip, if_neg hn, if_pos hb]
    · rw [List.append_assoc] at hc
      have hskip := skipWhile_isBlank_eq_skip hc hu rfl
      have hn : (c.skip u.length).here? = some Byte.newline := here?_skip_append hc
      have hskip' := skipWhile_isBlank_eq_skip (rest_behind_newline hc) hv rfl
      simp only [locate?, hskip, if_pos hn, hskip', skip_behind_newline, if_pos hb]

theorem opensAt_iff : placement.OpensAt bs i p ↔
    ∃ w r, bs.drop i = w ++ Byte.leftBrace :: r ∧ w ∈ placement.gap.matches' ∧ p = i + w.length := by
  constructor
  · rintro ⟨hle, hbrace, hgap⟩
    obtain ⟨hp, hb⟩ := List.getElem?_eq_some_iff.1 hbrace
    refine ⟨_, bs.drop (p + 1), ?_, hgap, ?_⟩
    · rw [← hb, ← List.drop_eq_getElem_cons hp]
      nth_rewrite 2 [← Nat.add_sub_of_le hle]
      rw [← List.drop_drop, List.take_append_drop]
    · rw [List.length_take, List.length_drop]
      omega
  · rintro ⟨w, r, hw, hgap, rfl⟩
    refine ⟨Nat.le_add_right i _, ?_, ?_⟩
    · rw [← List.getElem?_drop, hw, List.getElem?_append_right (Nat.le_refl _), Nat.sub_self]
      rfl
    · rwa [Nat.add_sub_cancel_left, hw, List.take_left]

theorem locate?_eq_some_iff :
    placement.locate? (.atOffset bs i) = some c ↔ ∃ p, c = .atOffset bs p ∧ placement.OpensAt bs i p := by
  simp only [opensAt_iff]
  constructor
  · intro h
    obtain ⟨w, r, hrest, hw, rfl⟩ := gap_of_locate? h
    rw [Cursor.rest_atOffset] at hrest
    exact ⟨i + w.length, Cursor.skip_atOffset .., w, r, hrest, hw, rfl⟩
  · rintro ⟨_, rfl, w, r, hrest, hw, rfl⟩
    rw [← Cursor.skip_atOffset]
    exact locate?_of_gap ((Cursor.rest_atOffset ..).trans hrest) hw

/-- The search decides for one brace. -/
theorem OpensAt.unique {q : Nat} (hp : placement.OpensAt bs i p) (hq : placement.OpensAt bs i q) : p = q := by
  have hfound := locate?_eq_some_iff.2 ⟨p, rfl, hp⟩
  rw [locate?_eq_some_iff.2 ⟨q, rfl, hq⟩, Option.some.injEq] at hfound
  have hoffset := congrArg Cursor.offset hfound
  rwa [Cursor.offset_atOffset, Cursor.offset_atOffset, eq_comm] at hoffset

theorem OpensAt.lt (h : placement.OpensAt bs i p) : i < bs.length :=
  Nat.lt_of_le_of_lt h.le (List.getElem?_eq_some_iff.1 h.brace).1

theorem locate?_eq_none_iff :
    placement.locate? (.atOffset bs i) = none ↔ ∀ p, ¬ placement.OpensAt bs i p := by
  simp only [Option.eq_none_iff_forall_ne_some, ne_eq, locate?_eq_some_iff, not_exists, not_and]
  constructor
  · exact fun h p hp => h _ p rfl hp
  · exact fun h c p _ => h p

/-! ## Main theorem -/

/-- From any offset of a text, the brace is found that stands behind what the placement allows, and nothing is
found if there is no such brace. There is one at most, and none for an offset at the end of the text or past it. -/
theorem locate?_finds_opening (placement : BracePlacement) (bs : List UInt8) (i : Nat) :
    (∀ c, placement.locate? (.atOffset bs i) = some c ↔ ∃ p, c = .atOffset bs p ∧ placement.OpensAt bs i p) ∧
      (∀ p q, placement.OpensAt bs i p → placement.OpensAt bs i q → p = q) ∧
      (placement.locate? (.atOffset bs i) = none ↔ ∀ p, ¬ placement.OpensAt bs i p) ∧
      (bs.length ≤ i → placement.locate? (.atOffset bs i) = none) := by
  refine ⟨fun c => locate?_eq_some_iff, fun p q => OpensAt.unique, locate?_eq_none_iff, ?_⟩
  intro hi
  rw [locate?_eq_none_iff]
  exact fun p hp => Nat.not_lt.2 hi hp.lt

/-- A brace behind blanks on both sides of a newline. -/
theorem locate?_finds_opening_behind_blanks :
    let bs := bytes "f() \r\n\t\x7b"
    lenient.OpensAt bs 3 7 ∧ lenient.locate? (.atOffset bs 3) = some (.atOffset bs 7) ∧
      (∀ q, lenient.OpensAt bs 3 q → 7 = q) ∧ nextLine.locate? (.atOffset bs 3) = none ∧
      bs.length ≤ 8 ∧ lenient.locate? (.atOffset bs 8) = none := by
  intro bs
  have hopens : lenient.OpensAt bs 3 7 := by decide +kernel
  have hend : bs.length ≤ 8 := by decide +kernel
  obtain ⟨hfound, hunique, -, -⟩ := locate?_finds_opening lenient bs 3
  obtain ⟨-, -, -, hnone⟩ := locate?_finds_opening lenient bs 8
  exact ⟨hopens, (hfound _).2 ⟨7, rfl, hopens⟩, fun q => hunique 7 q hopens, by decide +kernel, hend, hnone hend⟩

end BracePlacement

end BodyLength
