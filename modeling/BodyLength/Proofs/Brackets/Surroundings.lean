import BodyLength.Proofs.Brackets.Closing
import BodyLength.Proofs.Lexing.Segments
/-!
# Searches in a longer text

A place of a text is also a place of that text with more in front of it or behind it. A search that
starts in plain code does not see what stands in front (`close?_precededBy`). If the text ends in a
newline, a search that comes to an end within it does not see what stands behind either
(`close?_followedBy`): the lexer looks one byte ahead, but never past a newline.
-/

namespace BodyLength

/-- A byte that fails `p` keeps what follows from being read. -/
theorem takeWhile_append_of_mem {l : List UInt8} {p : UInt8 → Bool} {b : UInt8} (hb : b ∈ l) (hp : p b = false)
    (t : List UInt8) : (l ++ t).takeWhile p = l.takeWhile p := by
  rw [List.takeWhile_append, if_neg]
  intro h
  rw [← (List.takeWhile_prefix p).eq_of_length h] at hb
  have := List.all_eq_true.1 List.all_takeWhile b hb
  rw [hp] at this
  cases this

namespace Cursor

/-- The same place, with `t` behind the text. -/
def followedBy (c : Cursor) (t : List UInt8) : Cursor := { c with rest := c.rest ++ t }

/-- The same place, with `t` in front of the text. -/
def precededBy (c : Cursor) (t : List UInt8) : Cursor where
  offset := t.length + c.offset
  before := if c.offset = 0 then t.getLast? else c.before
  rest := c.rest

variable (c : Cursor) (t : List UInt8)

@[simp] theorem offset_followedBy : (c.followedBy t).offset = c.offset := rfl

@[simp] theorem rest_followedBy : (c.followedBy t).rest = c.rest ++ t := rfl

@[simp] theorem offset_precededBy : (c.precededBy t).offset = t.length + c.offset := rfl

@[simp] theorem rest_precededBy : (c.precededBy t).rest = c.rest := rfl

@[simp] theorem here?_precededBy : (c.precededBy t).here? = c.here? := rfl

theorem skip_precededBy (n : Nat) : (c.precededBy t).skip n = (c.skip n).precededBy t := by
  cases n with
  | zero => rfl
  | succ n => simp [skip, precededBy, Nat.add_assoc]

theorem skipWhile_precededBy (p : UInt8 → Bool) : (c.precededBy t).skipWhile p = (c.skipWhile p).precededBy t :=
  skip_precededBy ..

variable {c}

theorem skip_followedBy {n : Nat} (h : n ≤ c.rest.length) : (c.followedBy t).skip n = (c.skip n).followedBy t := by
  cases n with
  | zero => rfl
  | succ n => simp [skip, followedBy, List.getElem?_append_left h, List.drop_append_of_le_length h]

theorem here?_followedBy (h : c.rest ≠ []) : (c.followedBy t).here? = c.here? := by
  rw [here?, rest_followedBy, List.head?_append_of_ne_nil _ h, here?]

theorem skipWhile_followedBy {p : UInt8 → Bool} {b : UInt8} (hb : b ∈ c.rest) (hp : p b = false) :
    (c.followedBy t).skipWhile p = (c.skipWhile p).followedBy t := by
  rw [skipWhile, rest_followedBy, takeWhile_append_of_mem hb hp]
  exact skip_followedBy t (List.takeWhile_prefix p).length_le

/-- The end of the text. -/
def toEnd (c : Cursor) : Cursor := c.skip c.rest.length

@[simp] theorem rest_toEnd (c : Cursor) : c.toEnd.rest = [] := by
  rw [toEnd, rest_skip, List.drop_length]

theorem toEnd_skip {n : Nat} (h : n ≤ c.rest.length) : (c.skip n).toEnd = c.toEnd := by
  rw [toEnd, skip_skip, rest_skip, List.length_drop, Nat.add_sub_of_le h, toEnd]

theorem toEnd_skipWhile (p : UInt8 → Bool) : (c.skipWhile p).toEnd = c.toEnd :=
  toEnd_skip (List.takeWhile_prefix p).length_le

/-- A text that begins where another one ends has that one in front. -/
theorem toEnd_start_followedBy (l t : List UInt8) : (start l).toEnd.followedBy t = (start t).precededBy l := by
  cases l with
  | nil => rfl
  | cons b l => simp [toEnd, start, skip, followedBy, precededBy, List.getLast?_eq_getElem?]

/-- A search that finds nothing in the text goes on in what follows. -/
theorem skipWhile_followedBy_of_all {p : UInt8 → Bool} (h : ∀ b ∈ c.rest, p b) :
    (c.followedBy t).skipWhile p = (c.toEnd.followedBy t).skipWhile p := by
  rw [skipWhile, rest_followedBy, List.takeWhile_append_of_pos h, List.length_append, ← skip_skip,
    skip_followedBy t (Nat.le_refl _), skipWhile, rest_followedBy, rest_toEnd, List.nil_append, toEnd]

end Cursor

/-! ## Where a search settles -/

namespace Brackets

/-- Whether a search ends within the bytes `l`, at the closing bracket or at a breaker. -/
def settles (k : Brackets) (depth : Nat) : List (Nat × UInt8) → Bool
  | [] => false
  | (_, b) :: l => k.ends depth (some b) || settles k (k.depthAfter depth (some b)) l

variable {k : Brackets}

/-- No byte behind is looked at then. -/
theorem closing_append_of_settles {depth : Nat} {l : List (Nat × UInt8)} (h : k.settles depth l)
    (l' : List (Nat × UInt8)) : k.closing depth (l ++ l') = k.closing depth l := by
  induction l generalizing depth with
  | nil => cases h
  | cons x l ih =>
    obtain ⟨p, b⟩ := x
    rw [settles, Bool.or_eq_true] at h
    rw [List.cons_append, closing, closing]
    split
    · rfl
    next he => exact ih (h.resolve_left he)

theorem settles_of_closing {depth p : Nat} {l : List (Nat × UInt8)} (h : k.closing depth l = some p) :
    k.settles depth l := by
  induction l generalizing depth with
  | nil => cases h
  | cons x l ih =>
    obtain ⟨q, b⟩ := x
    rw [closing] at h
    rw [settles, Bool.or_eq_true]
    split at h
    next he => exact .inl he
    · exact .inr (ih h)

end Brackets

/-- The search for the end of the parameter list that opens before `c` does not run to the end of the
text: the list closes, or a semicolon breaks it off. -/
def SignatureMode.Settles (mode : SignatureMode) (c : Cursor) : Prop :=
  Brackets.parens.settles 0 (mode.counted .plain c)

instance (mode : SignatureMode) (c : Cursor) : Decidable (mode.Settles c) := inferInstanceAs (Decidable (_ = true))

/-! ## Text behind -/

theorem LexState.exists_code_followedBy (s : LexState) (c : Cursor) (t : List UInt8)
    (h : c.rest.getLast?.all (· == Byte.newline)) : ∃ l, s.code (c.followedBy t) = s.code c ++ l := by
  induction hn : c.rest.length using Nat.strongRecOn generalizing s c with
  | ind n ih =>
    cases hc : c.rest with
    | nil => exact ⟨_, by rw [s.code_of_nil hc, List.nil_append]⟩
    | cons b r =>
      have hc' : (c.followedBy t).rest = b :: (r ++ t) := by rw [Cursor.rest_followedBy, hc, List.cons_append]
      have hstep : s.stepAt (c.followedBy t) b (r ++ t) = s.stepAt c b r := by
        cases r with
        | nil =>
          have hb : b = Byte.newline := by simpa [hc] using h
          rw [hb]
          exact Enclosure.step_after s (by decide) ..
        | cons a r => rfl
      rw [s.code_of_cons hc, s.code_of_cons hc', hstep, Cursor.offset_followedBy]
      by_cases hle : (s.stepAt c b r).advance ≤ c.rest.length
      · have hlast : (c.skip (s.stepAt c b r).advance).rest.getLast?.all (· == Byte.newline) := by
          rw [Cursor.rest_skip, List.getLast?_drop]
          split
          · rfl
          · exact h
        obtain ⟨l, hl⟩ := ih _ (hn ▸ s.length_rest_skip_stepAt c hc) (s.stepAt c b r).next _ hlast rfl
        rw [Cursor.skip_followedBy t hle, hl]
        exact ⟨l, (List.append_assoc ..).symm⟩
      · -- the step goes past the end, so there is no code left to follow
        have hnil : (c.skip (s.stepAt c b r).advance).rest = [] := by
          rw [Cursor.rest_skip, List.drop_eq_nil_of_le (Nat.le_of_not_le hle)]
        rw [LexState.code_of_nil _ hnil, List.append_nil]
        exact ⟨_, rfl⟩

namespace SignatureMode

variable (mode : SignatureMode)

theorem exists_counted_followedBy (s : LexState) (c : Cursor) (t : List UInt8)
    (h : c.rest.getLast?.all (· == Byte.newline)) : ∃ l, mode.counted s (c.followedBy t) = mode.counted s c ++ l := by
  cases mode with
  | baseline => exact ⟨_, by rw [counted, Cursor.rest_followedBy, List.zipIdx_append, List.map_append]; rfl⟩
  | literalAware => exact s.exists_code_followedBy c t h

/-- The place behind a parameter list is a place of the text, behind a parenthesis. -/
theorem exists_skip_of_close? {mode : SignatureMode} {c behind : Cursor} (h : mode.close? c = some behind) :
    ∃ n, behind = c.skip (n + 1) ∧ c.rest[n]? = some Byte.rightParen := by
  rw [close?_eq, Option.map_eq_some_iff] at h
  obtain ⟨p, hp, rfl⟩ := h
  have hle := mode.le_of_closing hp
  refine ⟨p - c.offset, ?_, mode.getElem?_rest_of_mem_counted .plain (Brackets.mem_of_closing hp)⟩
  congr 1
  omega

theorem close?_followedBy {c : Cursor} (t : List UInt8) (h : c.rest.getLast?.all (· == Byte.newline))
    (hs : mode.Settles c) : mode.close? (c.followedBy t) = (mode.close? c).map (·.followedBy t) := by
  obtain ⟨l, hl⟩ := mode.exists_counted_followedBy .plain c t h
  rw [close?_eq, close?_eq, hl, Brackets.closing_append_of_settles hs, Option.map_map]
  refine Option.map_congr ?_
  intro p hp
  have hle := mode.le_of_closing hp
  have hlt := mode.getElem?_rest_of_mem_counted .plain (Brackets.mem_of_closing hp)
  obtain ⟨hlt, -⟩ := List.getElem?_eq_some_iff.1 hlt
  exact Cursor.skip_followedBy t (by simp only [Cursor.offset_followedBy] at hle hlt ⊢; omega)

/-! ## Text in front -/

/-- From plain code on, a search only sees what is left of the text. -/
theorem counted_start (c : Cursor) : mode.counted .plain c =
    (mode.counted .plain (.start c.rest)).map fun x => (x.1 + c.offset, x.2) := by
  cases mode with
  | baseline =>
    have hadd : c.rest.zipIdx c.offset = (c.rest.zipIdx 0).map (Prod.map id (· + c.offset)) := by
      rw [List.map_snd_add_zipIdx_eq_zipIdx, Nat.add_zero]
    rw [counted, counted, hadd, List.map_map, Cursor.rest_start, List.map_map]
    rfl
  | literalAware =>
    obtain ⟨o, p, l⟩ := c
    obtain ⟨ss, hs⟩ := exists_segmented l
    rw [counted, counted, Cursor.start, code_of_segmented hs, code_of_segmented hs, ← Segment.codeFrom_add,
      Nat.zero_add]

theorem closing_start (k : Brackets) (c : Cursor) : k.closing 0 (mode.counted .plain c) =
    (k.closing 0 (mode.counted .plain (.start c.rest))).map (· + c.offset) := by
  rw [counted_start, Brackets.closing_map_add]

theorem close?_start (c : Cursor) : mode.close? c =
    (Brackets.parens.closing 0 (mode.counted .plain (.start c.rest))).map fun p => c.skip (p + 1) := by
  rw [close?_eq, closing_start, Option.map_map]
  refine Option.map_congr ?_
  intro p _
  show c.skip (p + c.offset + 1 - c.offset) = _
  congr 1
  omega

theorem close?_precededBy (c : Cursor) (t : List UInt8) :
    mode.close? (c.precededBy t) = (mode.close? c).map (·.precededBy t) := by
  rw [close?_start, close?_start, Option.map_map, Cursor.rest_precededBy]
  refine Option.map_congr ?_
  intro p _
  exact Cursor.skip_precededBy ..

end SignatureMode

end BodyLength
