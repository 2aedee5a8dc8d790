import BodyLength.Proofs.Text.Lines
/-!
# Lines and where they start

`LineIndex.lineOf` gives the line of an offset and `LineIndex.lineStart?` the offset where a line starts.
A line starts at or before an offset if and only if its number is at most that of the offset's line
(`lineStart_le_iff_le_lineOf`), so either function determines the other.

The bisection is compared with a walk along the lines of a text (`lineByWalk`).
-/

namespace BodyLength

/-- The line of an offset in a text of given lines, found by walking along them. An offset past the end is
on the last line. -/
def lineByWalk : List (List UInt8) → Nat → Nat
  | [], _ => 0
  | line :: lines, o => if o ≤ line.length then 1 else lineByWalk lines (o - (line.length + 1)) + 1

/-- The walk passes one newline for each line that it leaves behind. -/
theorem lineByWalk_splitOn (bs : List UInt8) (o : Nat) :
    lineByWalk (bs.splitOn Byte.newline) o = newlinesBefore bs o + 1 := by
  induction bs generalizing o with
  | nil => cases o <;> rfl
  | cons b bs ih =>
    cases o with
    | zero =>
      obtain ⟨line, lines, hlines⟩ := List.exists_cons_of_ne_nil (List.splitOn_ne_nil Byte.newline (b :: bs))
      rw [hlines, lineByWalk, if_pos (Nat.zero_le _)]
      rfl
    | succ o =>
      obtain ⟨line, lines, hlines⟩ := List.exists_cons_of_ne_nil (List.splitOn_ne_nil Byte.newline bs)
      have hrest := ih o
      rw [newlinesBefore, List.take_succ_cons, List.count_cons, ← newlinesBefore,
        List.splitOn_cons_eq_if_modifyHead]
      by_cases hb : b = Byte.newline
      · simpa [hb, lineByWalk] using hrest
      · rw [hlines, lineByWalk] at hrest
        simpa [hb, hlines, lineByWalk] using hrest

namespace LineIndex

variable {bs : List UInt8} {n m : UInt32} {s t : Nat}

theorem lineStart?_eq_some_iff : (ofBytes bs).lineStart? n = some s ↔
    1 ≤ n.toNat ∧ (0 :: behindNewlines bs 0)[n.toNat - 1]? = some s := by
  have hzero : n = 0 ↔ n.toNat = 0 := by rw [← UInt32.toNat_inj, UInt32.toNat_zero]
  rw [lineStart?, starts_ofBytes, List.getElem?_toArray, Nat.one_le_iff_ne_zero, Ne, ← hzero]
  split <;> simp_all

/-- A line has a start if and only if the text has that line. -/
theorem isSome_lineStart?_iff :
    ((ofBytes bs).lineStart? n).isSome ↔ 1 ≤ n.toNat ∧ n.toNat ≤ (ofBytes bs).lineCount := by
  have hcount : (ofBytes bs).lineCount = (0 :: behindNewlines bs 0).length := rfl
  simp only [Option.isSome_iff_exists, lineStart?_eq_some_iff, exists_and_left]
  rw [← Option.isSome_iff_exists, isSome_getElem?, hcount]
  omega

/-- Lines start in ascending order. -/
theorem lineStart_lt (hs : (ofBytes bs).lineStart? n = some s) (ht : (ofBytes bs).lineStart? m = some t)
    (h : n < m) : s < t := by
  obtain ⟨hn, hs⟩ := lineStart?_eq_some_iff.1 hs
  obtain ⟨-, ht⟩ := lineStart?_eq_some_iff.1 ht
  obtain ⟨hi, rfl⟩ := List.getElem?_eq_some_iff.1 hs
  obtain ⟨hj, rfl⟩ := List.getElem?_eq_some_iff.1 ht
  have hlt := UInt32.lt_iff_toNat_lt.1 h
  exact List.pairwise_iff_getElem.1 (pairwise_starts bs) _ _ hi hj (by omega)

/-- A line starts at or before an offset if and only if the lines before it have ended by then. -/
theorem lineStart_le_iff (hs : (ofBytes bs).lineStart? n = some s) (o : Nat) :
    s ≤ o ↔ n.toNat ≤ newlinesBefore bs o + 1 := by
  obtain ⟨hn, hs⟩ := lineStart?_eq_some_iff.1 hs
  obtain ⟨hlow, hhigh⟩ := countP_le_spec (pairwise_starts bs) o
  rw [countP_starts] at hlow hhigh
  constructor
  · intro hle
    apply Nat.le_of_not_lt
    intro hlt
    exact absurd (hhigh (n.toNat - 1) (by omega) s hs) (Nat.not_lt.2 hle)
  · intro hle
    exact hlow (n.toNat - 1) (by omega) s hs

section
variable (h : (ofBytes bs).lineCount < 2 ^ 32)
include h

theorem lineStart_le_iff_le_lineOf (hs : (ofBytes bs).lineStart? n = some s) (o : Nat) :
    s ≤ o ↔ n ≤ (ofBytes bs).lineOf o := by
  rw [lineStart_le_iff hs, UInt32.le_iff_toNat_le, toNat_lineOf h]

theorem lineOf_mono {o p : Nat} (hle : o ≤ p) : (ofBytes bs).lineOf o ≤ (ofBytes bs).lineOf p := by
  rw [UInt32.le_iff_toNat_le, toNat_lineOf h, toNat_lineOf h]
  exact Nat.succ_le_succ (newlinesBefore_mono bs hle)

/-- Every offset is on a line of the text. -/
theorem exists_lineStart?_lineOf (o : Nat) : ∃ t, (ofBytes bs).lineStart? ((ofBytes bs).lineOf o) = some t := by
  rw [← Option.isSome_iff_exists, isSome_lineStart?_iff, toNat_lineOf h, lineCount_ofBytes]
  have := newlinesBefore_le bs o
  omega

/-- No further line starts where a line does. -/
theorem lineOf_lineStart (hs : (ofBytes bs).lineStart? n = some s) : (ofBytes bs).lineOf s = n := by
  obtain ⟨t, ht⟩ := exists_lineStart?_lineOf h s
  have hts : t ≤ s := (lineStart_le_iff_le_lineOf h ht s).2 (UInt32.le_refl _)
  apply UInt32.le_antisymm
  · rw [← UInt32.not_lt]
    intro hlt
    exact absurd hts (Nat.not_le.2 (lineStart_lt hs ht hlt))
  · exact (lineStart_le_iff_le_lineOf h hs s).1 (Nat.le_refl s)

/-! ## Main theorem -/

/-- In a text whose lines have numbers, the line of an offset is one more than the newlines before the offset,
as far as the text goes, and the one that a walk along the lines comes to. Exactly the lines of the text have
a start, a line starts at or before an offset if and only if it is not behind the offset's line, and so a
line is that of its start and later offsets are on later lines. -/
theorem lineOf_adjoint_lineStart :
    (∀ o, ((ofBytes bs).lineOf o).toNat = 1 + (bs.take (min o bs.length)).count Byte.newline ∧
      ((ofBytes bs).lineOf o).toNat = lineByWalk (bs.splitOn Byte.newline) o) ∧
    (∀ n, ((ofBytes bs).lineStart? n).isSome ↔ 1 ≤ n.toNat ∧ n.toNat ≤ (ofBytes bs).lineCount) ∧
    (∀ n s, (ofBytes bs).lineStart? n = some s →
      (∀ o, s ≤ o ↔ n ≤ (ofBytes bs).lineOf o) ∧ (ofBytes bs).lineOf s = n) ∧
    ∀ o p, o ≤ p → (ofBytes bs).lineOf o ≤ (ofBytes bs).lineOf p := by
  refine ⟨fun o => ⟨?_, ?_⟩, fun n => isSome_lineStart?_iff, fun n s hs => ⟨?_, ?_⟩, fun o p => lineOf_mono h⟩
  · rw [toNat_lineOf h, newlinesBefore, ← List.take_eq_take_min, Nat.add_comm]
  · rw [toNat_lineOf h, lineByWalk_splitOn]
  · exact lineStart_le_iff_le_lineOf h hs
  · exact lineOf_lineStart h hs

end

/-- A text that ends in a newline, with its empty last line. -/
theorem lineOf_adjoint_lineStart_last :
    let x := ofBytes (bytes "ab\n\ncd\n")
    x.lineCount < 2 ^ 32 ∧ x.lineCount = 4 ∧ x.lineOf 2 = 1 ∧ x.lineOf 3 = 2 ∧ x.lineOf 100 = 4 ∧
      x.lineStart? 4 = some 7 ∧ (∀ o, 7 ≤ o ↔ 4 ≤ x.lineOf o) ∧ x.lineOf 7 = 4 ∧ ¬ (x.lineStart? 5).isSome := by
  intro x
  have h : x.lineCount < 2 ^ 32 := by decide +kernel
  have hs : x.lineStart? 4 = some 7 := by decide +kernel
  obtain ⟨-, hlines, hadjoint, -⟩ := lineOf_adjoint_lineStart h
  obtain ⟨hle, hline⟩ := hadjoint 4 7 hs
  refine ⟨h, by decide +kernel, by decide +kernel, by decide +kernel, by decide +kernel, hs, hle, hline, ?_⟩
  rw [hlines]
  decide +kernel

end LineIndex

end BodyLength
