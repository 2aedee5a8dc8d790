import BodyLength.Proofs.Text.Utf8Order
import BodyLength.Text.Lossy
import Mathlib.Data.List.TakeWhile
import Mathlib.Tactic.SplitIfs
/-!
# Texts are shown as they are

What `Utf8.lead?` says of a first byte holds for the bytes of every character (`Utf8.exists_lead?`), so a
character is never taken apart, nor does it take anything of what follows it (`Utf8.tailLength_append`). A
text is then shown as that text whatever bytes follow it (`shownText_append`).
-/

namespace BodyLength

open CodePoint (lead extra continuation)

theorem CodePoint.length_continuation (v k : Nat) : (continuation v k).length = k := by
  induction k with
  | zero => rfl
  | succ k ih => rw [continuation, List.length_cons, ih]

namespace Utf8

variable {v k : Nat} {c : Char}

theorem toNat_tail (n : Nat) : (UInt8.ofNat (n % 64 + 0x80)).toNat = n % 64 + 0x80 :=
  UInt8.toNat_ofNat_of_lt' (show _ < 256 by omega)

theorem isTail_of_mem_continuation {b : UInt8} (h : b ∈ continuation v k) : isTail b := by
  induction k with
  | zero => cases h
  | succ k ih =>
    rcases List.mem_cons.1 h with rfl | h
    · rw [isTail, Bool.and_eq_true, decide_eq_true_iff, decide_eq_true_iff, UInt8.le_iff_toNat_le,
        UInt8.le_iff_toNat_le, toNat_tail]
      constructor
      · exact Nat.le_add_left _ _
      · show _ ≤ 191
        omega
    · exact ih h

/-! ## First bytes -/

theorem lead?_ofNat {n : Nat} (hn : n < 256) : lead? (.ofNat n) =
    if 0xC2 ≤ n ∧ n ≤ 0xDF then some ⟨1, 0x80, 0xBF⟩
    else if n = 0xE0 then some ⟨2, 0xA0, 0xBF⟩
    else if n = 0xED then some ⟨2, 0x80, 0x9F⟩
    else if 0xE1 ≤ n ∧ n ≤ 0xEF then some ⟨2, 0x80, 0xBF⟩
    else if n = 0xF0 then some ⟨3, 0x90, 0xBF⟩
    else if n = 0xF4 then some ⟨3, 0x80, 0x8F⟩
    else if 0xF1 ≤ n ∧ n ≤ 0xF3 then some ⟨3, 0x80, 0xBF⟩
    else none := by
  have h := UInt8.toNat_ofNat_of_lt' hn
  simp only [lead?, UInt8.le_iff_toNat_le, ← UInt8.toNat_inj, h]
  rfl

theorem lead?_of_extra_eq_zero (h : extra v = 0) : lead? (.ofNat (lead v)) = none := by
  have hv : v < 0x80 := by
    unfold extra at h
    split_ifs at h
    assumption
  have hlead : lead v = v := if_pos hv
  rw [hlead, lead?_ofNat (by omega)]
  split_ifs <;> first | omega | rfl

/-- The first byte of a longer character tells its length, and the next byte is in the range that it tells. -/
theorem exists_lead? (h : extra c.toNat = k + 1) :
    ∃ l, lead? (.ofNat (lead c.toNat)) = some l ∧ l.more = k + 1 ∧
      l.low ≤ .ofNat (c.toNat / 64 ^ k % 64 + 0x80) ∧ .ofNat (c.toNat / 64 ^ k % 64 + 0x80) ≤ l.high := by
  -- the ranges behind E0, ED, F0 and F4 are smaller, since code points are not spelled with more bytes than they
  -- need, surrogates are no characters, and there is an end to code points
  have hvalid : c.toNat < 0xD800 ∨ 0xDFFF < c.toNat ∧ c.toNat < 0x110000 := c.valid
  have hbyte := CodePoint.lead_lt (toNat_char_lt c)
  simp only [UInt8.le_iff_toNat_le, toNat_tail]
  generalize c.toNat = v at *
  unfold extra at h
  split_ifs at h with hone htwo hthree
  · obtain rfl : k = 0 := by omega
    have hlead : lead v = v / 64 + 0xC0 := by rw [lead, if_neg hone, if_pos htwo]
    rw [hlead] at hbyte ⊢
    rw [lead?_ofNat hbyte, if_pos (by omega)]
    exact ⟨_, rfl, rfl, by simp; omega⟩
  · obtain rfl : k = 1 := by omega
    have hlead : lead v = v / 4096 + 0xE0 := by rw [lead, if_neg hone, if_neg htwo, if_pos hthree]
    rw [hlead] at hbyte ⊢
    rw [lead?_ofNat hbyte, if_neg (by omega)]
    split_ifs
    iterate 3 exact ⟨_, rfl, rfl, by simp; omega⟩
    all_goals omega
  · obtain rfl : k = 2 := by omega
    have hlead : lead v = v / 262144 + 0xF0 := by rw [lead, if_neg hone, if_neg htwo, if_neg hthree]
    rw [hlead] at hbyte ⊢
    rw [lead?_ofNat hbyte, if_neg (by omega), if_neg (by omega), if_neg (by omega), if_neg (by omega)]
    split_ifs
    iterate 3 exact ⟨_, rfl, rfl, by simp; omega⟩
    omega

/-! ## Characters -/

theorem tailLength_append (c : Char) (bs : List UInt8) : tailLength (.ofNat (lead c.toNat))
    (continuation c.toNat (extra c.toNat) ++ bs) = extra c.toNat := by
  cases h : extra c.toNat with
  | zero => simp only [tailLength, lead?_of_extra_eq_zero h]
  | succ k =>
    obtain ⟨l, hl, hmore, hrange⟩ := exists_lead? h
    have htake : (continuation c.toNat k ++ bs).take (l.more - 1) = continuation c.toNat k := by
      rw [hmore, Nat.add_sub_cancel, List.take_left' (CodePoint.length_continuation ..)]
    have htail : (continuation c.toNat k).takeWhile isTail = continuation c.toNat k :=
      List.takeWhile_eq_self_iff.2 fun _ hb => isTail_of_mem_continuation hb
    rw [continuation, List.cons_append]
    simp only [tailLength, hl, if_pos hrange, htake, htail, CodePoint.length_continuation, Nat.add_comm]

theorem replacing_char_append (c : Char) (bs : List UInt8) :
    replacing (String.utf8EncodeChar c ++ bs) = c :: replacing bs := by
  have htext : text? (String.utf8EncodeChar c) = some (.ofList [c]) := by
    rw [text?_eq_some_iff, bytes_eq, String.toList_ofList, List.flatMap_singleton]
  have hlength := CodePoint.length_continuation c.toNat (extra c.toNat)
  rw [utf8EncodeChar_eq] at htext ⊢
  rw [List.cons_append, replacing, tailLength_append, List.take_left' hlength, List.drop_left' hlength, htext]
  exact congrArg (· ++ replacing bs) String.toList_ofList

theorem replacing_append (cs : List Char) (bs : List UInt8) :
    replacing (cs.flatMap String.utf8EncodeChar ++ bs) = cs ++ replacing bs := by
  induction cs with
  | nil => rfl
  | cons c cs ih => rw [List.flatMap_cons, List.append_assoc, replacing_char_append, ih, List.cons_append]

end Utf8

/-! ## Texts -/

/-- Bytes that encode a text come to that text in any case. -/
theorem shownText_eq (bs : List UInt8) : shownText bs = String.ofList (Utf8.replacing bs) := by
  rw [shownText]
  cases h : text? bs with
  | none => rfl
  | some s =>
    have hs := Utf8.replacing_append s.toList []
    rw [List.append_nil, ← bytes_eq, Utf8.replacing, List.append_nil] at hs
    rw [text?_eq_some_iff.1 h, hs, String.ofList_toList]

/-- A text is shown as it is in front of any bytes. -/
theorem shownText_append (s : String) (bs : List UInt8) : shownText (bytes s ++ bs) = s ++ shownText bs := by
  rw [shownText_eq, shownText_eq, bytes_eq, Utf8.replacing_append, String.ofList_append, String.ofList_toList]

/-- A byte that is no text, and then an unfinished character. -/
example : shownText (bytes "a" ++ [0xFF, 0xE2, 0x82]) = "a\ufffd\ufffd" := by decide +kernel

end BodyLength
