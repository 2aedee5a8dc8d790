import BodyLength.Proofs.Text.Utf8
import Mathlib.Data.String.Basic
import Mathlib.Tactic.SplitIfs
/-!
# The order of texts is the order of their bytes

Texts are ordered by their characters. The first byte of a character says how many bytes follow, and longer
characters have larger first bytes and larger code points; among characters of one length the bytes are the
digits of the code point, the most significant ones first. So of two characters the larger one already has
the larger bytes, whatever follows (`utf8EncodeChar_append_lt`), and texts may as well be compared by their
bytes (`bytes_lt_bytes`).
-/

namespace BodyLength

namespace CodePoint

/-- How many bytes follow the first one. -/
def extra (v : Nat) : Nat := if v < 0x80 then 0 else if v < 0x800 then 1 else if v < 0x10000 then 2 else 3

/-- The first byte. -/
def lead (v : Nat) : Nat :=
  if v < 0x80 then v else if v < 0x800 then v / 64 + 0xC0 else if v < 0x10000 then v / 4096 + 0xE0
  else v / 262144 + 0xF0

/-- The bytes that hold the last `6 * k` bits. -/
def continuation (v : Nat) : Nat → List UInt8
  | 0 => []
  | k + 1 => .ofNat (v / 64 ^ k % 64 + 0x80) :: continuation v k

variable {v w : Nat}

theorem lead_lt (h : v < 0x110000) : lead v < 256 := by
  unfold lead
  split_ifs <;> omega

/-- The first byte decides unless the digits behind it do. -/
theorem lead_lt_or_eq (h : v < w) : lead v < lead w ∨
    lead v = lead w ∧ extra v = extra w ∧ v % 64 ^ extra v < w % 64 ^ extra v := by
  unfold lead extra
  split_ifs <;> omega

theorem ofNat_cons_lt {m n : Nat} {l r : List UInt8} (hm : m < 256) (hn : n < 256) (h : m < n ∨ m = n ∧ l < r) :
    UInt8.ofNat m :: l < UInt8.ofNat n :: r := by
  rw [List.cons_lt_cons_iff]
  rcases h with h | ⟨rfl, h⟩
  · left
    rw [UInt8.lt_iff_toNat_lt, UInt8.toNat_ofNat_of_lt' hm, UInt8.toNat_ofNat_of_lt' hn]
    exact h
  · exact .inr ⟨rfl, h⟩

theorem continuation_lt {k : Nat} (h : v % 64 ^ k < w % 64 ^ k) (l r : List UInt8) :
    continuation v k ++ l < continuation w k ++ r := by
  induction k with
  | zero => omega
  | succ k ih =>
    have hw : w % 64 ^ k < 64 ^ k := Nat.mod_lt _ (Nat.pow_pos (by decide))
    rw [Nat.mod_pow_succ, Nat.mod_pow_succ] at h
    apply ofNat_cons_lt (by omega) (by omega)
    rcases Nat.lt_trichotomy (v / 64 ^ k % 64) (w / 64 ^ k % 64) with hlt | heq | hgt
    · exact .inl (by omega)
    · rw [heq] at h
      exact .inr ⟨by omega, ih (Nat.lt_of_add_lt_add_right h)⟩
    · -- a smaller digit is not made up for by those behind it
      have hle := Nat.mul_le_mul_left (64 ^ k) hgt
      rw [Nat.mul_succ] at hle
      omega

end CodePoint

theorem toNat_char_lt (c : Char) : c.toNat < 0x110000 := by
  rcases c.valid with h | ⟨-, h⟩
  · exact Nat.lt_trans h (by decide)
  · exact h

theorem utf8EncodeChar_eq (c : Char) : String.utf8EncodeChar c =
    .ofNat (CodePoint.lead c.toNat) :: CodePoint.continuation c.toNat (CodePoint.extra c.toNat) := by
  have hc := toNat_char_lt c
  unfold String.utf8EncodeChar CodePoint.lead CodePoint.extra
  simp only [Nat.lt_succ_iff, Char.toNat_val]
  split_ifs
  · rfl
  all_goals
    rw [Nat.mod_eq_of_lt (by omega)]
    simp [CodePoint.continuation]

/-- The larger character has the larger bytes, and neither begins with the other. -/
theorem utf8EncodeChar_append_lt {c d : Char} (h : c < d) (l r : List UInt8) :
    String.utf8EncodeChar c ++ l < String.utf8EncodeChar d ++ r := by
  have hcd : c.toNat < d.toNat := UInt32.lt_iff_toNat_lt.1 h
  rw [utf8EncodeChar_eq, utf8EncodeChar_eq]
  apply CodePoint.ofNat_cons_lt (CodePoint.lead_lt (toNat_char_lt c)) (CodePoint.lead_lt (toNat_char_lt d))
  rcases CodePoint.lead_lt_or_eq hcd with hlead | ⟨hlead, hextra, hdigits⟩
  · exact .inl hlead
  · rw [← hextra]
    exact .inr ⟨hlead, CodePoint.continuation_lt hdigits l r⟩

theorem flatMap_utf8EncodeChar_lt {cs ds : List Char} (h : cs < ds) :
    cs.flatMap String.utf8EncodeChar < ds.flatMap String.utf8EncodeChar := by
  induction h with
  | @nil d ds =>
    rw [List.flatMap_cons, utf8EncodeChar_eq]
    exact List.nil_lt_cons _ _
  | @cons c cs ds _ ih =>
    rw [List.flatMap_cons, List.flatMap_cons]
    exact List.append_left_lt ih
  | @rel c cs d ds h =>
    rw [List.flatMap_cons, List.flatMap_cons]
    exact utf8EncodeChar_append_lt h _ _

/-- Comparing texts by their bytes and by their characters is the same. -/
theorem bytes_lt_bytes {s t : String} : bytes s < bytes t ↔ s < t := by
  have hlt {s t : String} (h : s < t) : bytes s < bytes t := by
    rw [bytes_eq, bytes_eq]
    exact flatMap_utf8EncodeChar_lt h
  refine ⟨?_, hlt⟩
  intro h
  rcases lt_trichotomy s t with hst | rfl | hts
  · exact hst
  · exact absurd h (List.lt_irrefl _)
  · exact absurd (hlt hts) (List.lt_asymm h)

end BodyLength
