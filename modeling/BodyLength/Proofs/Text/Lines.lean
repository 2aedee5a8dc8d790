import BodyLength.Text.Lines
import Mathlib.Algebra.GroupWithZero.Nat
import Mathlib.Data.List.Basic
/-!
# Counting lines

The bisection of a `LineIndex` finds how many lines start at or before an offset
(`bisect_eq`), and that is one more than the newlines before the offset (`lineOf_eq`).
-/

namespace BodyLength

/-- How many newlines stand before offset `o`. -/
def newlinesBefore (bs : List UInt8) (o : Nat) : Nat := (bs.take o).count Byte.newline

theorem newlinesBefore_mono (bs : List UInt8) {o p : Nat} (h : o ≤ p) : newlinesBefore bs o ≤ newlinesBefore bs p := by
  apply List.Sublist.count_le
  rw [← Nat.min_eq_left h, ← List.take_take]
  exact List.take_sublist _ _

theorem newlinesBefore_le (bs : List UInt8) (o : Nat) : newlinesBefore bs o ≤ bs.count Byte.newline :=
  (List.take_sublist o bs).count_le _

theorem newlinesBefore_add_count_drop (bs : List UInt8) (o : Nat) :
    newlinesBefore bs o + (bs.drop o).count Byte.newline = bs.count Byte.newline := by
  rw [newlinesBefore, ← List.count_append, List.take_append_drop]

theorem newlinesBefore_append_left {bs : List UInt8} {o : Nat} (h : o ≤ bs.length) (t : List UInt8) :
    newlinesBefore (bs ++ t) o = newlinesBefore bs o := by
  rw [newlinesBefore, List.take_append_of_le_length h, newlinesBefore]

theorem newlinesBefore_append_right (bs t : List UInt8) (o : Nat) :
    newlinesBefore (t ++ bs) (t.length + o) = t.count Byte.newline + newlinesBefore bs o := by
  rw [newlinesBefore, List.take_length_add_append, List.count_append, newlinesBefore]

theorem newlinesBefore_add_one (bs : List UInt8) (o : Nat) :
    newlinesBefore bs (o + 1) = newlinesBefore bs o + if bs[o]? = some Byte.newline then 1 else 0 := by
  rw [newlinesBefore, List.take_add_one, List.count_append, newlinesBefore]
  cases bs[o]? with
  | none => rfl
  | some b =>
    simp only [Option.toList_some, List.count_singleton, beq_iff_eq, Option.some.injEq]

theorem newlinesBefore_succ {bs : List UInt8} {o : Nat} (h : bs[o]? = some Byte.newline) :
    newlinesBefore bs (o + 1) = newlinesBefore bs o + 1 := by
  rw [newlinesBefore_add_one, if_pos h]

/-! ## Lines as texts -/

/-- The lines of a text, without the newlines that end them. A newline at the very end of the text
begins no further line. -/
def textLines : List UInt8 → List (List UInt8)
  | [] => []
  | b :: bs =>
    if b = Byte.newline then [] :: textLines bs
    else
      match textLines bs with
      | [] => [[b]]
      | l :: ls => (b :: l) :: ls

theorem length_textLines_cons (b : UInt8) (bs : List UInt8) : (textLines (b :: bs)).length =
    if b = Byte.newline then (textLines bs).length + 1 else max 1 (textLines bs).length := by
  rw [textLines]
  split
  · rfl
  · split
    next h => simp [h]
    next h => simp [h]

theorem count_newline_le_length_textLines (bs : List UInt8) : bs.count Byte.newline ≤ (textLines bs).length := by
  induction bs with
  | nil => exact Nat.le_refl 0
  | cons b bs ih =>
    rw [length_textLines_cons, List.count_cons]
    by_cases hb : b = Byte.newline
    · simpa [hb] using ih
    · simp only [hb, if_false, beq_iff_eq, Nat.add_zero]
      omega

/-- What is no newline stands on a line. -/
theorem newlinesBefore_lt_length_textLines {bs : List UInt8} {o : Nat} {b : UInt8} (h : bs[o]? = some b)
    (hb : b ≠ Byte.newline) : newlinesBefore bs o < (textLines bs).length := by
  induction bs generalizing o with
  | nil => simp at h
  | cons a bs ih =>
    rw [length_textLines_cons]
    cases o with
    | zero =>
      have ha : a ≠ Byte.newline := by
        rintro rfl
        exact hb (Option.some.inj h).symm
      rw [if_neg ha]
      exact Nat.lt_of_lt_of_le Nat.zero_lt_one (Nat.le_max_left ..)
    | succ o =>
      have hlt := ih (o := o) h
      have hcount : newlinesBefore (a :: bs) (o + 1) = newlinesBefore bs o + if a = Byte.newline then 1 else 0 := by
        rw [newlinesBefore, List.take_succ_cons, List.count_cons, newlinesBefore]
        simp only [beq_iff_eq]
      rw [hcount]
      split <;> omega

namespace LineIndex

/-! ## The bisection -/

/-- Bisection finds the place `n` that divides what is at most the bound from the rest. -/
theorem bisect_eq {xs : Array Nat} {bound n : Nat} (hlow : ∀ i < n, ∀ x, xs[i]? = some x → x ≤ bound)
    (hhigh : ∀ i, n ≤ i → ∀ x, xs[i]? = some x → bound < x) {lo hi : Nat} (hlo : lo ≤ n) (hhi : n ≤ hi)
    (hsize : hi ≤ xs.size) : bisect xs bound lo hi = n := by
  fun_induction bisect xs bound lo hi with
  | case1 lo hi hlt hnone =>
    rw [Array.getElem?_eq_none_iff] at hnone
    omega
  | case2 lo hi hlt x hx hle ih =>
    apply ih _ hhi hsize
    apply Nat.succ_le_of_lt
    apply Nat.lt_of_not_le
    intro hn
    exact absurd (hhigh _ hn x hx) (Nat.not_lt.2 hle)
  | case3 lo hi hlt x hx hle ih =>
    apply ih hlo _ (by omega)
    apply Nat.le_of_not_lt
    intro hn
    exact hle (hlow _ hn x hx)
  | case4 lo hi hlt =>
    omega

/-- In an ascending list, what is at most a bound stands in front. -/
theorem countP_le_spec {l : List Nat} (h : l.Pairwise (· < ·)) (bound : Nat) :
    (∀ i < l.countP (· ≤ bound), ∀ x, l[i]? = some x → x ≤ bound) ∧
      ∀ i, l.countP (· ≤ bound) ≤ i → ∀ x, l[i]? = some x → bound < x := by
  induction l with
  | nil => simp
  | cons y l ih =>
    obtain ⟨hy, hl⟩ := List.pairwise_cons.1 h
    obtain ⟨hlow, hhigh⟩ := ih hl
    by_cases hb : y ≤ bound
    · rw [List.countP_cons_of_pos (by simpa using hb)]
      constructor
      · intro i hi x hx
        cases i with
        | zero => simp_all
        | succ i => exact hlow i (by omega) x (by simpa using hx)
      · intro i hi x hx
        cases i with
        | zero => omega
        | succ i => exact hhigh i (by omega) x (by simpa using hx)
    · -- everything behind `y` is beyond the bound as well
      have hzero : l.countP (· ≤ bound) = 0 := by
        rw [List.countP_eq_zero]
        intro x hx
        have := hy x hx
        simp only [decide_eq_true_eq]
        omega
      rw [List.countP_cons_of_neg (by simpa using hb), hzero]
      refine ⟨by simp, ?_⟩
      intro i _ x hx
      cases i with
      | zero => simp_all
      | succ i => exact hhigh i (by omega) x (by simpa using hx)

/-! ## Where lines start -/

/-- The offsets just behind the newlines of `bs`, if `bs` starts at offset `k`. -/
def behindNewlines (bs : List UInt8) (k : Nat) : List Nat :=
  (bs.zipIdx k).filterMap fun (b, i) => if b = Byte.newline then some (i + 1) else none

theorem starts_ofBytes (bs : List UInt8) : (ofBytes bs).starts = (0 :: behindNewlines bs 0).toArray := rfl

theorem behindNewlines_cons (b : UInt8) (bs : List UInt8) (k : Nat) : behindNewlines (b :: bs) k =
    (if b = Byte.newline then [k + 1] else []) ++ behindNewlines bs (k + 1) := by
  rw [behindNewlines, List.zipIdx_cons, List.filterMap_cons]
  split <;> simp_all [behindNewlines]

theorem lt_of_mem_behindNewlines {bs : List UInt8} {k x : Nat} (h : x ∈ behindNewlines bs k) : k < x := by
  induction bs generalizing k with
  | nil => simp [behindNewlines] at h
  | cons b bs ih =>
    rw [behindNewlines_cons, List.mem_append] at h
    rcases h with h | h
    · split at h <;> simp_all
    · exact Nat.lt_of_succ_lt (ih h)

theorem pairwise_behindNewlines (bs : List UInt8) (k : Nat) : (behindNewlines bs k).Pairwise (· < ·) := by
  induction bs generalizing k with
  | nil => simp [behindNewlines]
  | cons b bs ih =>
    rw [behindNewlines_cons]
    split
    · exact List.pairwise_cons.2 ⟨fun x hx => lt_of_mem_behindNewlines hx, ih (k + 1)⟩
    · exact ih (k + 1)

/-- A line that starts behind a newline starts at or before offset `k + n` if its newline is one
of the first `n` bytes. -/
theorem countP_behindNewlines (bs : List UInt8) (k n : Nat) :
    (behindNewlines bs k).countP (· ≤ k + n) = newlinesBefore bs n := by
  induction bs generalizing k n with
  | nil => simp [behindNewlines, newlinesBefore]
  | cons b bs ih =>
    rw [behindNewlines_cons]
    cases n with
    | zero =>
      have hzero : ∀ x ∈ behindNewlines (b :: bs) k, ¬ x ≤ k := fun x hx =>
        Nat.not_le.2 (lt_of_mem_behindNewlines hx)
      rw [← behindNewlines_cons, newlinesBefore, List.take_zero, List.count_nil, List.countP_eq_zero]
      simpa using hzero
    | succ n =>
      rw [List.countP_append, show k + (n + 1) = k + 1 + n by omega, ih, newlinesBefore, newlinesBefore,
        List.take_succ_cons, List.count_cons]
      split <;> simp_all [Nat.add_comm]

theorem pairwise_starts (bs : List UInt8) : (0 :: behindNewlines bs 0).Pairwise (· < ·) :=
  List.pairwise_cons.2 ⟨fun _ hx => lt_of_mem_behindNewlines hx, pairwise_behindNewlines bs 0⟩

/-- The first line starts at or before every offset. -/
theorem countP_starts (bs : List UInt8) (o : Nat) :
    (0 :: behindNewlines bs 0).countP (· ≤ o) = newlinesBefore bs o + 1 := by
  have hcount := countP_behindNewlines bs 0 o
  rw [Nat.zero_add] at hcount
  rw [List.countP_cons_of_pos (by simp), hcount]

/-! ## Lines of offsets -/

theorem lineCount_ofBytes (bs : List UInt8) : (ofBytes bs).lineCount = bs.count Byte.newline + 1 := by
  have hall : ∀ x ∈ behindNewlines bs 0, x ≤ bs.length := by
    intro x hx
    simp only [behindNewlines, List.mem_filterMap, Prod.exists] at hx
    obtain ⟨b, i, hi, hx⟩ := hx
    have := List.snd_lt_of_mem_zipIdx hi
    split at hx <;> simp_all
    omega
  have hcount := countP_behindNewlines bs 0 bs.length
  rw [List.countP_eq_length.2 (by simpa using hall), newlinesBefore, List.take_length] at hcount
  rw [lineCount, starts_ofBytes, List.size_toArray, List.length_cons, hcount]

/-- An offset is on the line after the newlines before it. -/
theorem lineOf_eq (bs : List UInt8) (o : Nat) :
    (ofBytes bs).lineOf o = (newlinesBefore bs o + 1).toUInt32 := by
  have hmin : newlinesBefore bs (min o bs.length) = newlinesBefore bs o := by
    rw [newlinesBefore, ← List.take_eq_take_min, newlinesBefore]
  have hcount := countP_starts bs (min o bs.length)
  rw [hmin] at hcount
  obtain ⟨hlow, hhigh⟩ := countP_le_spec (pairwise_starts bs) (min o bs.length)
  rw [hcount] at hlow hhigh
  have hsize : newlinesBefore bs o + 1 ≤ (0 :: behindNewlines bs 0).toArray.size := by
    rw [← hcount, List.size_toArray]
    exact List.countP_le_length
  show (bisect (ofBytes bs).starts (min o bs.length) 0 (ofBytes bs).starts.size).toUInt32 = _
  rw [starts_ofBytes, bisect_eq (by simpa using hlow) (by simpa using hhigh) (Nat.zero_le _) hsize (Nat.le_refl _)]

/-- In a text whose lines have numbers, none is too large for its word. -/
theorem toNat_lineOf {bs : List UInt8} (h : (ofBytes bs).lineCount < 2 ^ 32) (o : Nat) :
    ((ofBytes bs).lineOf o).toNat = newlinesBefore bs o + 1 := by
  rw [lineCount_ofBytes] at h
  have := newlinesBefore_le bs o
  rw [lineOf_eq, Nat.toUInt32, UInt32.toNat_ofNat_of_lt']
  rw [UInt32.size]
  omega

end LineIndex

end BodyLength
