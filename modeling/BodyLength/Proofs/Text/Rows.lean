/-!
# Texts written line by line

Where each line of a text is ended by a newline, the newlines tell the lines apart, as long as there is none
within a line (`splitOn_unlines_append`). A number is written in digits, so it ends at any other character.
-/

namespace BodyLength

/-- The lines, each with a newline behind it. -/
def unlines (ls : List (List Char)) : List Char := ls.flatMap (· ++ ['\n'])

variable {ls ls' : List (List Char)}

theorem splitOn_unlines_append (h : ∀ l ∈ ls, '\n' ∉ l) (r : List Char) :
    (unlines ls ++ r).splitOn '\n' = ls ++ r.splitOn '\n' := by
  induction ls with
  | nil => rfl
  | cons l ls ih =>
    obtain ⟨hl, hls⟩ := List.forall_mem_cons.1 h
    calc (unlines (l :: ls) ++ r).splitOn '\n'
        = (l ++ '\n' :: (unlines ls ++ r)).splitOn '\n' := by simp [unlines]
      _ = l :: (unlines ls ++ r).splitOn '\n' := List.splitOn_append_cons_self_of_not_mem hl _
      _ = l :: ls ++ r.splitOn '\n' := congrArg (l :: ·) (ih hls)

theorem unlines_inj (h : ∀ l ∈ ls, '\n' ∉ l) (h' : ∀ l ∈ ls', '\n' ∉ l) : unlines ls = unlines ls' ↔ ls = ls' := by
  refine ⟨fun heq => ?_, congrArg unlines⟩
  have hsplit := congrArg (List.splitOn '\n' <| · ++ []) heq
  simp only [splitOn_unlines_append h, splitOn_unlines_append h'] at hsplit
  exact List.append_cancel_right hsplit

/-! ## Numbers -/

theorem notMem_toDigits {c : Char} (hc : c.isDigit = false) (n : Nat) : c ∉ Nat.toDigits 10 n := by
  intro h
  rw [Nat.isDigit_of_mem_toDigits (by decide) (by decide) h] at hc
  cases hc

theorem toDigits_inj {m n : Nat} : Nat.toDigits 10 m = Nat.toDigits 10 n ↔ m = n := by
  refine ⟨fun h => ?_, congrArg (Nat.toDigits 10)⟩
  calc m = Nat.ofDigitChars 10 (Nat.toDigits 10 m) 0 := Nat.ofDigitChars_ten_toDigits.symm
    _ = Nat.ofDigitChars 10 (Nat.toDigits 10 n) 0 := by rw [h]
    _ = n := Nat.ofDigitChars_ten_toDigits

/-- What follows the last `c` is told apart from what comes before it. -/
theorem append_cons_inj_of_notMem_right {α : Type} {c : α} {l l' r r' : List α} (h : c ∉ r) (h' : c ∉ r') :
    l ++ c :: r = l' ++ c :: r' ↔ l = l' ∧ r = r' := by
  constructor
  · intro heq
    rcases List.append_eq_append_iff.1 heq with ⟨m, hl, hr⟩ | ⟨m, hl, hr⟩
    · cases m with
      | nil => exact ⟨by simpa using hl.symm, (List.cons.inj hr).2⟩
      | cons a m => exact absurd ((List.cons.inj hr).2 ▸ List.mem_append_right m List.mem_cons_self) h
    · cases m with
      | nil => exact ⟨by simpa using hl, (List.cons.inj hr).2.symm⟩
      | cons a m => exact absurd ((List.cons.inj hr).2 ▸ List.mem_append_right m List.mem_cons_self) h'
  · rintro ⟨rfl, rfl⟩
    rfl

end BodyLength
