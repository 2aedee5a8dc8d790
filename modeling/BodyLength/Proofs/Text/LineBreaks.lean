import BodyLength.Text.Bytes
/-!
# Texts that differ in their line breaks

A `LineBreak` is a newline with blanks around it. A text is `Respaced` if each newline of it has been
replaced by such a line break. What is read of a text by dropping bytes is then respaced as well, so
searches through both texts can be compared place by place.
-/

namespace BodyLength

/-- White space, newlines included. -/
def Byte.isWhite (b : UInt8) : Bool := b == newline || isBlank b

theorem Byte.isWhite_of_isBlank {b : UInt8} (h : isBlank b) : isWhite b := by
  rw [isWhite, h, Bool.or_true]

theorem Byte.not_isIdentifier_of_isWhite {b : UInt8} (h : isWhite b) : isIdentifier b = false := by
  simp only [isWhite, isBlank, Bool.or_eq_true, beq_iff_eq] at h
  rcases h with rfl | (rfl | rfl) | rfl
  · rfl
  · rfl
  · rfl
  · rfl

/-- A newline among blanks. -/
structure LineBreak where
  before : List UInt8
  after : List UInt8
  blank_of_mem_before : ∀ b ∈ before, Byte.isBlank b
  blank_of_mem_after : ∀ b ∈ after, Byte.isBlank b

namespace LineBreak

def text (w : LineBreak) : List UInt8 := w.before ++ Byte.newline :: w.after

variable (w : LineBreak)

theorem white_of_mem_text {b : UInt8} (h : b ∈ w.text) : Byte.isWhite b := by
  rw [text, List.mem_append, List.mem_cons] at h
  rcases h with h | rfl | h
  · exact Byte.isWhite_of_isBlank (w.blank_of_mem_before b h)
  · rfl
  · exact Byte.isWhite_of_isBlank (w.blank_of_mem_after b h)

theorem exists_text_eq_cons : ∃ b t, w.text = b :: t :=
  List.exists_cons_of_ne_nil (by simp [text])

theorem newline_notMem {l : List UInt8} (h : ∀ b ∈ l, Byte.isBlank b) : Byte.newline ∉ l := by
  intro hn
  cases h _ hn

theorem count_newline_text : w.text.count Byte.newline = 1 := by
  rw [text, List.count_append, List.count_cons_self, List.count_eq_zero.2 (newline_notMem w.blank_of_mem_before),
    List.count_eq_zero.2 (newline_notMem w.blank_of_mem_after)]

end LineBreak

/-- The second text is the first one with other line breaks. -/
inductive Respaced (breaks : LineBreak → Prop) : List UInt8 → List UInt8 → Prop
  | nil : Respaced breaks [] []
  | byte {b : UInt8} {l l' : List UInt8} : b ≠ Byte.newline → Respaced breaks l l' →
      Respaced breaks (b :: l) (b :: l')
  | newline {w : LineBreak} {l l' : List UInt8} : breaks w → Respaced breaks l l' →
      Respaced breaks (Byte.newline :: l) (w.text ++ l')

namespace Respaced

variable {breaks : LineBreak → Prop} {l l' : List UInt8} {p : UInt8 → Bool} {b : UInt8}

theorem eq_nil_iff (h : Respaced breaks l l') : l = [] ↔ l' = [] := by
  cases h with
  | nil => simp
  | byte => simp
  | @newline w => simp [LineBreak.text]

theorem count_newline (h : Respaced breaks l l') : l.count Byte.newline = l'.count Byte.newline := by
  induction h with
  | nil => rfl
  | byte hb _ ih => rw [List.count_cons_of_ne hb, List.count_cons_of_ne hb, ih]
  | @newline w _ _ _ _ ih => rw [List.count_cons_self, List.count_append, w.count_newline_text, ih, Nat.add_comm]

theorem append_left {r r' : List UInt8} (hl : Byte.newline ∉ l) (h : Respaced breaks r r') :
    Respaced breaks (l ++ r) (l ++ r') := by
  induction l with
  | nil => exact h
  | cons b l ih =>
    rw [List.mem_cons, not_or] at hl
    exact .byte (Ne.symm hl.1) (ih hl.2)

/-- Both texts begin with the same byte, if that is not white. -/
theorem head?_eq_some_iff (h : Respaced breaks l l') (hb : Byte.isWhite b = false) :
    l.head? = some b ↔ l'.head? = some b := by
  cases h with
  | nil => rfl
  | byte => simp
  | @newline w l l' _ _ =>
    obtain ⟨a, t, ht⟩ := w.exists_text_eq_cons
    have ha : Byte.isWhite a := w.white_of_mem_text (by simp [ht])
    have hne {x : UInt8} (hx : Byte.isWhite x) : x ≠ b := by
      rintro rfl
      rw [hx] at hb
      cases hb
    simp [ht, hne ha, hne (x := Byte.newline) rfl]

theorem drop_one (h : Respaced breaks l l') (hl : l.head? = some b) (hb : b ≠ Byte.newline) :
    Respaced breaks (l.drop 1) (l'.drop 1) := by
  cases h with
  | nil => cases hl
  | byte _ h => exact h
  | newline => exact absurd (Option.some.inj hl).symm hb

theorem takeWhile_eq (h : Respaced breaks l l') (hp : ∀ b, Byte.isWhite b → p b = false) :
    l.takeWhile p = l'.takeWhile p := by
  induction h with
  | nil => rfl
  | @byte b _ _ _ _ ih =>
    by_cases hb : p b
    · rw [List.takeWhile_cons_of_pos hb, List.takeWhile_cons_of_pos hb, ih]
    · rw [List.takeWhile_cons_of_neg hb, List.takeWhile_cons_of_neg hb]
  | @newline w _ _ _ _ _ =>
    obtain ⟨a, t, ht⟩ := w.exists_text_eq_cons
    have ha : ¬ p a := by simp [hp a (w.white_of_mem_text (by simp [ht]))]
    have hn : ¬ p Byte.newline := by simp [hp Byte.newline rfl]
    rw [List.takeWhile_cons_of_neg hn, ht, List.cons_append, List.takeWhile_cons_of_neg ha]

/-- A search that does not tell white bytes apart comes to the same place in both texts. -/
theorem dropWhile (h : Respaced breaks l l') (hp : ∀ b, Byte.isWhite b → p b = p Byte.newline) :
    Respaced breaks (l.dropWhile p) (l'.dropWhile p) := by
  induction h with
  | nil => exact .nil
  | @byte b _ _ hne h ih =>
    by_cases hb : p b
    · rwa [List.dropWhile_cons_of_pos hb, List.dropWhile_cons_of_pos hb]
    · rw [List.dropWhile_cons_of_neg hb, List.dropWhile_cons_of_neg hb]
      exact .byte hne h
  | @newline w r r' hw h ih =>
    by_cases hn : p Byte.newline
    · have hall : ∀ b ∈ w.text, p b := by
        intro b hb
        rw [hp b (w.white_of_mem_text hb), hn]
      rwa [List.dropWhile_cons_of_pos hn, List.dropWhile_append_of_pos hall]
    · obtain ⟨a, t, ht⟩ := w.exists_text_eq_cons
      have ha : ¬ p a := by rwa [hp a (w.white_of_mem_text (by simp [ht]))]
      have hstay : (w.text ++ r').dropWhile p = w.text ++ r' := by
        rw [ht, List.cons_append, List.dropWhile_cons_of_neg ha]
      rw [List.dropWhile_cons_of_neg hn, hstay]
      exact .newline hw h

/-- What is behind the blanks at the front. If that is a newline, further blanks may follow it. -/
theorem dropWhile_isBlank (h : Respaced breaks l l') :
    (∃ r v r', l.dropWhile Byte.isBlank = Byte.newline :: r ∧ l'.dropWhile Byte.isBlank = Byte.newline :: (v ++ r') ∧
      (∀ b ∈ v, Byte.isBlank b) ∧ Respaced breaks r r') ∨
    ((l.dropWhile Byte.isBlank).head? ≠ some Byte.newline ∧ (l'.dropWhile Byte.isBlank).head? ≠ some Byte.newline ∧
      Respaced breaks (l.dropWhile Byte.isBlank) (l'.dropWhile Byte.isBlank)) := by
  induction h with
  | nil => exact .inr ⟨by simp, by simp, .nil⟩
  | @byte b _ _ hne h ih =>
    by_cases hb : Byte.isBlank b
    · rwa [List.dropWhile_cons_of_pos hb, List.dropWhile_cons_of_pos hb]
    · rw [List.dropWhile_cons_of_neg hb, List.dropWhile_cons_of_neg hb]
      exact .inr ⟨by simpa using hne, by simpa using hne, .byte hne h⟩
  | @newline w r r' _ h _ =>
    have hn : ¬ Byte.isBlank Byte.newline := by decide
    refine .inl ⟨r, w.after, r', List.dropWhile_cons_of_neg hn, ?_, w.blank_of_mem_after, h⟩
    rw [LineBreak.text, List.append_assoc, List.dropWhile_append_of_pos w.blank_of_mem_before, List.cons_append,
      List.dropWhile_cons_of_neg hn]

end Respaced

end BodyLength
