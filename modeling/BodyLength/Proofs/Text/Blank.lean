import BodyLength.Text.Blank
import Mathlib.Data.List.DropRight
/-!
# White space and the case of letters

Making letters small changes nothing but capitals, so white space and marks stay where they are. Trimming takes
away the white space around a text (`Blank.trim_append`) and nothing else (`Blank.exists_trim`).
-/

namespace BodyLength

/-! ## The case of letters -/

theorem toNat_lowerAscii (c : Char) :
    (lowerAscii c).toNat = if 65 ≤ c.toNat ∧ c.toNat ≤ 90 then c.toNat + 32 else c.toNat := by
  have hcapital : 'A' ≤ c ∧ c ≤ 'Z' ↔ 65 ≤ c.toNat ∧ c.toNat ≤ 90 := Iff.rfl
  simp only [lowerAscii, hcapital]
  split
  · next hc =>
    have hvalid : (c.toNat + 32).isValidChar := .inl (by omega)
    rw [Char.ofNat, dif_pos hvalid]
    rfl
  · rfl

section
variable {d : Char} (h : ¬ ('A' ≤ d ∧ d ≤ 'Z') ∧ ¬ ('a' ≤ d ∧ d ≤ 'z'))
include h

/-- No capital becomes something else than a letter. -/
theorem lowerAscii_eq_iff {c : Char} : lowerAscii c = d ↔ c = d := by
  have hd : ¬ (65 ≤ d.toNat ∧ d.toNat ≤ 90) ∧ ¬ (97 ≤ d.toNat ∧ d.toNat ≤ 122) := h
  rw [← Char.toNat_inj, ← Char.toNat_inj, toNat_lowerAscii]
  split <;> omega

theorem mem_map_lowerAscii_iff {s : List Char} : d ∈ s.map lowerAscii ↔ d ∈ s := by
  simp only [List.mem_map, lowerAscii_eq_iff h, exists_eq_right]

end

/-- There are no capitals left. -/
theorem not_capital_lowerAscii (c : Char) : ¬ ('A' ≤ lowerAscii c ∧ lowerAscii c ≤ 'Z') := by
  show ¬ (65 ≤ (lowerAscii c).toNat ∧ (lowerAscii c).toNat ≤ 90)
  rw [toNat_lowerAscii]
  split <;> omega

theorem lowerAscii_lowerAscii (c : Char) : lowerAscii (lowerAscii c) = lowerAscii c :=
  if_neg (not_capital_lowerAscii c)

namespace Blank

/-- White space is below the digits and letters or above them. -/
theorem toNat_of_isBlank {c : Char} (h : isBlank c) : c.toNat ≤ 32 ∨ 133 ≤ c.toNat := by
  simp only [isBlank, ranges, List.any_cons, List.any_nil, Bool.or_eq_true, Bool.and_eq_true, decide_eq_true_iff,
    Bool.false_eq_true, or_false] at h
  omega

theorem isBlank_lowerAscii (c : Char) : isBlank (lowerAscii c) = isBlank c := by
  by_cases hc : 65 ≤ c.toNat ∧ c.toNat ≤ 90
  · have hlower : (lowerAscii c).toNat = c.toNat + 32 := by rw [toNat_lowerAscii, if_pos hc]
    have hc' : ¬ isBlank c := fun h => by
      have := toNat_of_isBlank h
      omega
    have hlower' : ¬ isBlank (lowerAscii c) := fun h => by
      have := toNat_of_isBlank h
      omega
    rw [Bool.eq_false_iff.2 hc', Bool.eq_false_iff.2 hlower']
  · rw [show lowerAscii c = c from if_neg hc]

/-! ## Trimming -/

variable {before s after : List Char}

theorem trim_eq (s : List Char) : trim s = (s.dropWhile isBlank).rdropWhile isBlank := rfl

/-- White space around a text is taken away. -/
theorem trim_append (hbefore : ∀ c ∈ before, isBlank c) (hafter : ∀ c ∈ after, isBlank c) :
    trim (before ++ s ++ after) = trim s := by
  rw [trim, trim, List.append_assoc, List.dropWhile_append_of_pos hbefore, List.dropWhile_append]
  split
  · next hs =>
    rw [List.isEmpty_iff.1 hs, List.dropWhile_eq_nil_iff.2 hafter]
  · rw [List.reverse_append, List.dropWhile_append_of_pos fun c hc => hafter c (List.mem_reverse.1 hc)]

/-- Nothing else is. -/
theorem exists_trim (s : List Char) : ∃ before after, s = before ++ trim s ++ after ∧
    (∀ c ∈ before, isBlank c) ∧ ∀ c ∈ after, isBlank c := by
  refine ⟨s.takeWhile isBlank, (s.dropWhile isBlank).rtakeWhile isBlank, ?_, ?_, ?_⟩
  · rw [trim_eq, List.append_assoc, List.rdropWhile_append_rtakeWhile, List.takeWhile_append_dropWhile]
  · exact fun c hc => List.mem_takeWhile_imp hc
  · exact fun c hc => List.mem_rtakeWhile_imp hc

theorem trim_eq_self (h : ∀ c ∈ s, ¬ isBlank c) : trim s = s := by
  have hfirst : s.dropWhile isBlank = s := List.dropWhile_eq_self_iff.2 fun hs => h _ (List.getElem_mem hs)
  rw [trim_eq, hfirst, List.rdropWhile_eq_self_iff]
  exact fun hs => h _ (List.getLast_mem hs)

theorem trim_map_lowerAscii (s : List Char) : trim (s.map lowerAscii) = (trim s).map lowerAscii := by
  have hblank : isBlank ∘ lowerAscii = isBlank := funext isBlank_lowerAscii
  simp only [trim, List.dropWhile_map, ← List.map_reverse, hblank]

end Blank

end BodyLength
