import BodyLength.Text.Bytes
/-!
# Where a text may be cut

A byte below 128 is a character of its own, so a text may be cut before and behind it
(`bytes_split`), and what lies between two such bytes is a text again (`exists_bytes_slice`).
-/

namespace BodyLength

theorem bytes_eq (s : String) : bytes s = s.toList.flatMap String.utf8EncodeChar := by
  show s.toByteArray.data.toList = _
  rw [← String.utf8Encode_toList, List.utf8Encode, List.toList_data_toByteArray]

theorem bytes_append (s t : String) : bytes (s ++ t) = bytes s ++ bytes t := by
  simp [bytes_eq]

/-- Reading the bytes of a text back gives the text. -/
theorem text?_bytes (s : String) : text? (bytes s) = some s := by
  have hs : (⟨(bytes s).toArray⟩ : ByteArray) = s.toByteArray := by
    show (⟨s.toByteArray.data.toList.toArray⟩ : ByteArray) = _
    rw [Array.toArray_toList]
  rw [text?, hs]
  exact dif_pos s.isValidUTF8

theorem text?_eq_some_iff {bs : List UInt8} {text : String} : text? bs = some text ↔ bs = bytes text := by
  constructor
  · intro h
    rw [text?, String.fromUTF8?] at h
    split at h
    · cases h
      rfl
    · cases h
  · rintro rfl
    exact text?_bytes text

theorem le_or_right {b n : UInt8} (h : 128 ≤ n) : 128 ≤ b ||| n := by
  rw [UInt8.le_iff_toNat_le] at h ⊢
  exact Nat.le_trans h (by rw [UInt8.toNat_or]; exact Nat.right_le_or)

/-- A character that needs several bytes has none below 128. -/
theorem utf8EncodeChar_of_mem {c : Char} {b : UInt8} (h : b ∈ String.utf8EncodeChar c) (hb : b < 128) :
    String.utf8EncodeChar c = [b] := by
  -- each byte of a longer encoding has its highest bit set
  have multi {l : List UInt8} (hl : ∀ x ∈ l, 128 ≤ x) (hc : String.utf8EncodeChar c = l) :
      String.utf8EncodeChar c = [b] :=
    absurd (hl b (hc ▸ h)) (UInt8.not_le.2 hb)
  rcases c.utf8Size_eq with hc | hc | hc | hc
  · rw [String.utf8EncodeChar_eq_singleton hc] at h ⊢
    rw [List.mem_singleton.1 h]
  · refine multi ?_ (String.utf8EncodeChar_eq_cons_cons hc)
    simp [le_or_right]
  · refine multi ?_ (String.utf8EncodeChar_eq_cons_cons_cons hc)
    simp [le_or_right]
  · refine multi ?_ (String.utf8EncodeChar_eq_cons_cons_cons_cons hc)
    simp [le_or_right]

theorem flatMap_split {cs : List Char} {b : UInt8} {l r : List UInt8}
    (hs : cs.flatMap String.utf8EncodeChar = l ++ b :: r) (hb : b < 128) : ∃ us c vs, cs = us ++ c :: vs ∧
      us.flatMap String.utf8EncodeChar = l ∧ String.utf8EncodeChar c = [b] ∧ vs.flatMap String.utf8EncodeChar = r := by
  induction cs generalizing l with
  | nil => simp at hs
  | cons c cs ih =>
    rw [List.flatMap_cons, List.append_eq_append_iff] at hs
    rcases hs with ⟨l', rfl, hs⟩ | ⟨t, hc, hs⟩
    · obtain ⟨us, d, vs, rfl, rfl, hd, hv⟩ := ih hs
      exact ⟨c :: us, d, vs, rfl, rfl, hd, hv⟩
    · -- `b` begins the next character or is a byte of `c`
      cases t with
      | nil =>
        obtain ⟨us, d, vs, rfl, hu, hd, hv⟩ := ih (l := []) hs.symm
        exact ⟨c :: us, d, vs, rfl, by rw [List.flatMap_cons, hu, hc, List.append_nil, List.append_nil], hd, hv⟩
      | cons x t =>
        obtain ⟨rfl, rfl⟩ := List.cons.inj hs
        have hb' := utf8EncodeChar_of_mem (c := c) (by rw [hc]; exact List.mem_append_right l List.mem_cons_self) hb
        obtain ⟨rfl, ht⟩ | ⟨_, -, ht⟩ := List.append_eq_cons_iff.1 (hc.symm.trans hb')
        · obtain rfl := (List.cons.inj ht).2
          exact ⟨[], c, cs, rfl, rfl, hb', rfl⟩
        · simp at ht

theorem bytes_split {s : String} {b : UInt8} {l r : List UInt8} (hs : bytes s = l ++ b :: r) (hb : b < 128) :
    ∃ u v w : String, bytes u = l ∧ bytes v = [b] ∧ bytes w = r := by
  rw [bytes_eq] at hs
  obtain ⟨us, c, vs, -, hu, hc, hv⟩ := flatMap_split hs hb
  exact ⟨.ofList us, .ofList [c], .ofList vs, by simp [bytes_eq, hu], by simp [bytes_eq, hc], by simp [bytes_eq, hv]⟩

theorem eq_take_append_of_getElem? {l : List UInt8} {n : Nat} {x : UInt8} (h : l[n]? = some x) :
    l = l.take n ++ x :: l.drop (n + 1) := by
  obtain ⟨hn, rfl⟩ := List.getElem?_eq_some_iff.1 h
  rw [← List.drop_eq_getElem_cons hn, List.take_append_drop]

/-- What stands between two bytes below 128, these included, is a text. -/
theorem exists_bytes_slice {s : String} {i j : Nat} {a b : UInt8} (hij : i < j) (ha : (bytes s)[i]? = some a)
    (hb : (bytes s)[j]? = some b) (ha' : a < 128) (hb' : b < 128) :
    ∃ t : String, bytes t = ((bytes s).drop i).take (j + 1 - i) := by
  obtain ⟨-, u, v, -, hu, hv⟩ := bytes_split (eq_take_append_of_getElem? ha) ha'
  have hvj : (bytes v)[j - (i + 1)]? = some b := by
    rw [hv, List.getElem?_drop, Nat.add_sub_of_le hij, hb]
  obtain ⟨w, z, -, hw, hz, -⟩ := bytes_split (eq_take_append_of_getElem? hvj) hb'
  refine ⟨u ++ w ++ z, ?_⟩
  obtain ⟨hi, rfl⟩ := List.getElem?_eq_some_iff.1 ha
  rw [bytes_append, bytes_append, hu, hw, hz, List.drop_eq_getElem_cons hi,
    show j + 1 - i = j - (i + 1) + 1 + 1 by omega, List.take_succ_cons, ← hv, List.take_add_one, hvj]
  rfl

theorem utf8EncodeChar_ofNat {b : UInt8} (h : b < 128) : String.utf8EncodeChar (Char.ofNat b.toNat) = [b] := by
  have hn : b.toNat < 128 := UInt8.lt_iff_toNat_lt.1 h
  have hv : (Char.ofNat b.toNat).toNat = b.toNat := by
    rw [Char.ofNat, dif_pos (.inl (by omega))]
    rfl
  have hs : (Char.ofNat b.toNat).utf8Size = 1 := by
    rw [Char.utf8Size_eq_one_iff, UInt32.le_iff_toNat_le]
    show (Char.ofNat b.toNat).toNat ≤ 127
    omega
  rw [String.utf8EncodeChar_eq_singleton hs]
  congr 1
  apply UInt8.toNat_inj.1
  show (Char.ofNat b.toNat).toNat % 256 = b.toNat
  omega

theorem bytes_injective {s t : String} (h : bytes s = bytes t) : s = t := by
  rw [← Option.some_inj, ← text?_bytes, ← text?_bytes, h]

/-- Only the ASCII character itself has its byte. -/
theorem mem_utf8EncodeChar_iff {c : Char} {b : UInt8} (hb : b < 128) :
    b ∈ String.utf8EncodeChar c ↔ c = Char.ofNat b.toNat := by
  constructor
  · intro h
    have hbytes : bytes (.ofList [c]) = bytes (.ofList [Char.ofNat b.toNat]) := by
      simp [bytes_eq, utf8EncodeChar_of_mem h hb, utf8EncodeChar_ofNat hb]
    simpa using bytes_injective hbytes
  · rintro rfl
    simp [utf8EncodeChar_ofNat hb]

theorem mem_bytes_iff {s : String} {b : UInt8} (hb : b < 128) : b ∈ bytes s ↔ Char.ofNat b.toNat ∈ s.toList := by
  simp [bytes_eq, List.mem_flatMap, mem_utf8EncodeChar_iff hb]

theorem bytes_asciiText {l : List UInt8} (h : ∀ b ∈ l, b < 128) : bytes (asciiText l) = l := by
  rw [bytes_eq, asciiText, String.toList_ofList, List.flatMap_map]
  induction l with
  | nil => rfl
  | cons b l ih =>
    rw [List.flatMap_cons, utf8EncodeChar_ofNat (h b List.mem_cons_self),
      ih fun x hx => h x (List.mem_cons_of_mem b hx)]
    rfl

end BodyLength
