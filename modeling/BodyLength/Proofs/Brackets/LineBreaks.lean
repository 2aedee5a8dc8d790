import BodyLength.Proofs.Brackets.Surroundings
import BodyLength.Proofs.Text.LineBreaks
import Mathlib.Data.List.Forall2
/-!
# Searches in a text with other line breaks

The lexer goes in step through two texts that differ in their line breaks. A white byte changes
nothing except that a newline ends a line comment, and no bracket is white. So the bytes that count
and are not white are the same in both texts and stand at corresponding places (`forall₂_solid`), and
a search for a closing bracket comes to corresponding places too (`closing_respaced`).

In a literal a backslash takes only the first byte of a line break with it. The bytes that are left of
the line break are white and stand in the literal, so they do not count either.
-/

namespace BodyLength

namespace LexState

variable (s : LexState)

/-- The state behind a white byte: a newline ends a line comment. -/
def afterWhite (b : UInt8) : LexState := if b = Byte.newline then { s with inLineComment := false } else s

theorem afterWhite_of_not_inLineComment {s : LexState} (h : s.inLineComment = false) (b : UInt8) :
    s.afterWhite b = s := by
  unfold afterWhite
  split
  · rw [← h]
  · rfl

theorem step_of_white {b : UInt8} (hb : Byte.isWhite b) (p n : Option UInt8) : (s.step p b n).advance = 1 ∧
    (s.step p b n).code.all Byte.isWhite ∧ (s.step p b n).next = s.afterWhite b := by
  have hne {x : UInt8} (hx : Byte.isWhite x = false) : b ≠ x := by
    rintro rfl
    rw [hb] at hx
    cases hx
  have hslash : b ≠ Byte.slash := hne rfl
  have hbackslash : b ≠ Byte.backslash := hne rfl
  have hdouble : b ≠ Byte.doubleQuote := hne rfl
  have hsingle : b ≠ Byte.singleQuote := hne rfl
  unfold step stepComment stepLiteral stepCode
  cases hline : s.inLineComment with
  | true =>
    by_cases hn : b = Byte.newline
    · simp [inComment, hline, hn, afterWhite, Byte.isWhite]
    · simp [inComment, hline, hn, afterWhite, hslash]
  | false =>
    rw [afterWhite_of_not_inLineComment hline]
    simp only [hslash, hbackslash, hdouble, hsingle, false_and, and_false, Bool.false_eq_true, if_false]
    split
    · simp
    · split
      · simp
      · simp [hb]

/-- Of its surroundings a step only sees whether there is a star before or a slash or a star behind. -/
theorem step_congr {p p' n n' : Option UInt8} (hp : p = some Byte.star ↔ p' = some Byte.star)
    (hslash : n = some Byte.slash ↔ n' = some Byte.slash) (hstar : n = some Byte.star ↔ n' = some Byte.star)
    (b : UInt8) : s.step p b n = s.step p' b n' := by
  simp only [step, stepComment, stepCode, hp, hslash, hstar]

theorem advance_stepComment (p : Option UInt8) (b : UInt8) : (s.stepComment p b).advance = 1 := by
  unfold stepComment
  split
  · rfl
  · split <;> rfl

theorem inLineComment_stepLiteral (b : UInt8) : (s.stepLiteral b).next.inLineComment = s.inLineComment := by
  unfold stepLiteral
  repeat' split
  all_goals rfl

/-- Two bytes are read only where a comment opens or behind a backslash in a literal. -/
theorem of_advance_eq_two {p n : Option UInt8} {b : UInt8} (h : (s.step p b n).advance = 2) :
    n = some Byte.slash ∨ n = some Byte.star ∨ (s.step p b n).next.inLineComment = false := by
  unfold step at h ⊢
  split
  next hc =>
    rw [if_pos hc, advance_stepComment] at h
    cases h
  next hc =>
    rw [if_neg hc] at h
    split
    · right
      right
      rw [inLineComment_stepLiteral]
      simp only [inComment, Bool.or_eq_true, not_or, Bool.not_eq_true] at hc
      exact hc.1
    next hl =>
      rw [if_neg hl] at h
      unfold stepCode at h
      repeat' split at h
      · cases h
      · cases h
      next hslash => exact .inl hslash.2
      next hstar => exact .inr (.inl hstar.2)
      · cases h

end LexState

namespace SignatureMode

variable (mode : SignatureMode) (s : LexState) {c : Cursor}

/-- The bytes that count from a place on, except the white ones. -/
def solid (c : Cursor) : List (Nat × UInt8) := (mode.counted s c).filter (!Byte.isWhite ·.2)

theorem solid_of_nil (h : c.rest = []) : mode.solid s c = [] := by
  rw [solid, mode.counted_of_nil s h, List.filter_nil]

theorem solid_of_cons {b : UInt8} {r : List UInt8} (h : c.rest = b :: r) : mode.solid s c =
    ((mode.read s c b r).code.map (c.offset, ·)).toList.filter (!Byte.isWhite ·.2) ++
      mode.solid (mode.read s c b r).next (c.skip (mode.read s c b r).advance) := by
  rw [solid, mode.counted_of_cons s h, List.filter_append, solid]

/-! ## White bytes -/

theorem solid_of_white {b : UInt8} {r : List UInt8} (h : c.rest = b :: r) (hb : Byte.isWhite b) :
    mode.solid s c = mode.solid (s.afterWhite b) (c.skip 1) := by
  rw [mode.solid_of_cons s h]
  cases mode with
  | baseline =>
    -- the state is not looked at
    have hnone : (((some b).map (c.offset, ·)).toList.filter (!Byte.isWhite ·.2) : List (Nat × UInt8)) = [] := by
      simp [hb]
    simp only [read]
    rw [hnone]
    rfl
  | literalAware =>
    obtain ⟨hadvance, hcode, hnext⟩ := s.step_of_white hb c.before r.head?
    simp only [read, LexState.stepAt, hadvance, hnext]
    cases hx : (s.step c.before b r.head?).code with
    | none => rfl
    | some x =>
      rw [hx] at hcode
      simp_all

theorem solid_of_whites {w r : List UInt8} (h : c.rest = w ++ r) (hw : ∀ b ∈ w, Byte.isWhite b)
    (hs : Byte.newline ∈ w → s.inLineComment = false) : mode.solid s c = mode.solid s (c.skip w.length) := by
  induction w generalizing c with
  | nil => rfl
  | cons b w ih =>
    have hafter : s.afterWhite b = s := by
      by_cases hn : b = Byte.newline
      · exact LexState.afterWhite_of_not_inLineComment (hs (by simp [hn])) b
      · exact if_neg hn
    have hrest : (c.skip 1).rest = w ++ r := by
      rw [Cursor.rest_skip, h]
      rfl
    rw [mode.solid_of_white s h (hw b List.mem_cons_self), hafter,
      ih hrest (fun x hx => hw x (List.mem_cons_of_mem b hx)) (fun hn => hs (List.mem_cons_of_mem b hn)),
      Cursor.skip_skip, List.length_cons, Nat.add_comm]

theorem solid_of_lineBreak {w : LineBreak} {r : List UInt8} (h : c.rest = w.text ++ r) :
    mode.solid s c = mode.solid (s.afterWhite Byte.newline) (c.skip w.text.length) := by
  have hblank {l : List UInt8} (hl : ∀ b ∈ l, Byte.isBlank b) : ∀ b ∈ l, Byte.isWhite b := by
    intro b hb
    exact Byte.isWhite_of_isBlank (hl b hb)
  rw [LineBreak.text, List.append_assoc] at h
  have hnewline : (c.skip w.before.length).rest = Byte.newline :: (w.after ++ r) := by
    rw [Cursor.rest_skip, h, List.drop_left, List.cons_append]
  have hafter : ((c.skip w.before.length).skip 1).rest = w.after ++ r := by
    rw [Cursor.rest_skip, hnewline]
    rfl
  rw [mode.solid_of_whites s h (hblank w.blank_of_mem_before)
      fun hn => absurd hn (LineBreak.newline_notMem w.blank_of_mem_before),
    mode.solid_of_white s hnewline rfl,
    mode.solid_of_whites _ hafter (hblank w.blank_of_mem_after)
      fun hn => absurd hn (LineBreak.newline_notMem w.blank_of_mem_after),
    Cursor.skip_skip, Cursor.skip_skip]
  congr 2
  simp [LineBreak.text, Nat.add_comm]

end SignatureMode

/-! ## Two texts -/

theorem drop_of_append {l w r : List UInt8} {n : Nat} (h : l.drop n = w ++ r) : l.drop (n + w.length) = r := by
  rw [← List.drop_drop, h, List.drop_left]

theorem drop_of_cons {l r : List UInt8} {n : Nat} {b : UInt8} (h : l.drop n = b :: r) : l.drop (n + 1) = r :=
  drop_of_append (w := [b]) h

/-- The same byte at corresponding places of two texts. -/
structure Corresponds (breaks : LineBreak → Prop) (bs bs' : List UInt8) (x x' : Nat × UInt8) : Prop where
  same : x.2 = x'.2
  at_place : bs[x.1]? = some x.2
  rest : Respaced breaks (bs.drop x.1) (bs'.drop x'.1)

theorem Corresponds.behind {breaks : LineBreak → Prop} {bs bs' : List UInt8} {x x' : Nat × UInt8}
    (h : Corresponds breaks bs bs' x x') (hx : x.2 ≠ Byte.newline) :
    Respaced breaks (bs.drop (x.1 + 1)) (bs'.drop (x'.1 + 1)) := by
  have hhead : (bs.drop x.1).head? = some x.2 := by rw [List.head?_drop, h.at_place]
  rw [← List.drop_drop, ← List.drop_drop]
  exact h.rest.drop_one hhead hx

/-- Places that a search through two texts in step may come to. -/
structure InStep (breaks : LineBreak → Prop) (bs bs' : List UInt8) (o o' : Nat) : Prop where
  rest : Respaced breaks (bs.drop o) (bs'.drop o')
  before : (Cursor.atOffset bs o).before = some Byte.star ↔ (Cursor.atOffset bs' o').before = some Byte.star

theorem before_ne_star {bs : List UInt8} {o : Nat} {w r : List UInt8} (h : bs.drop o = w ++ r) (hne : w ≠ [])
    (hw : ∀ b ∈ w, Byte.isWhite b) : (Cursor.atOffset bs (o + w.length)).before ≠ some Byte.star := by
  intro hstar
  obtain ⟨n, hn⟩ := Nat.exists_eq_succ_of_ne_zero (List.length_pos_iff.2 hne).ne'
  rw [hn, Nat.add_succ, Cursor.before_atOffset_succ, ← List.getElem?_drop, h,
    List.getElem?_append_left (by omega)] at hstar
  cases hw _ (List.mem_of_getElem? hstar)

namespace InStep

variable {breaks : LineBreak → Prop} {bs bs' : List UInt8} {o o' : Nat}

/-- Behind a line break. -/
theorem lineBreak {w : LineBreak} {r r' : List UInt8} (h : bs.drop o = Byte.newline :: r)
    (h' : bs'.drop o' = w.text ++ r') (hr : Respaced breaks r r') :
    InStep breaks bs bs' (o + 1) (o' + w.text.length) := by
  constructor
  · rwa [drop_of_cons h, drop_of_append h']
  · have hne := before_ne_star (w := [Byte.newline]) h (by simp) (by simp [Byte.isWhite])
    have hne' := before_ne_star h' (by simp [LineBreak.text]) fun b hb => w.white_of_mem_text hb
    exact ⟨fun hstar => absurd hstar hne, fun hstar => absurd hstar hne'⟩

/-- Behind a byte that is in both texts. -/
theorem byte {b : UInt8} {r r' : List UInt8} (h : bs.drop o = b :: r) (h' : bs'.drop o' = b :: r')
    (hr : Respaced breaks r r') : InStep breaks bs bs' (o + 1) (o' + 1) := by
  constructor
  · rwa [drop_of_cons h, drop_of_cons h']
  · rw [Cursor.before_atOffset_succ, Cursor.before_atOffset_succ, ← List.head?_drop, ← List.head?_drop, h, h']
    rfl

/-- What a step yields in both texts. -/
theorem forall₂_code {code : Option UInt8} {b : UInt8} {r : List UInt8} (h : InStep breaks bs bs' o o')
    (hr : bs.drop o = b :: r) (hcode : ∀ a, code = some a → a = b) : List.Forall₂ (Corresponds breaks bs bs')
      ((code.map (o, ·)).toList.filter (!Byte.isWhite ·.2)) ((code.map (o', ·)).toList.filter (!Byte.isWhite ·.2)) := by
  cases code with
  | none => exact .nil
  | some a =>
    obtain rfl : a = b := hcode a rfl
    have hat : bs[o]? = some a := by rw [← List.head?_drop, hr, List.head?_cons]
    by_cases ha : Byte.isWhite a
    · simp [ha]
    · simpa [ha] using ⟨rfl, hat, h.rest⟩

end InStep

namespace SignatureMode

variable (mode : SignatureMode) (s : LexState) {breaks : LineBreak → Prop} {bs bs' : List UInt8} {o o' : Nat}

theorem advance_read (c : Cursor) (b : UInt8) (r : List UInt8) :
    (mode.read s c b r).advance = 1 ∨ (mode.read s c b r).advance = 2 := by
  cases mode with
  | baseline => exact .inl rfl
  | literalAware => exact s.advance_step c.before b r.head?

theorem read_congr {b : UInt8} {r r' : List UInt8} (h : InStep breaks bs bs' o o') (hr : Respaced breaks r r') :
    mode.read s (.atOffset bs o) b r = mode.read s (.atOffset bs' o') b r' := by
  cases mode with
  | baseline => rfl
  | literalAware => exact s.step_congr h.before (hr.head?_eq_some_iff rfl) (hr.head?_eq_some_iff rfl) b

theorem of_advance_read_eq_two {b : UInt8} {r : List UInt8} {c : Cursor} (h : (mode.read s c b r).advance = 2)
    (hr : r.head? = some Byte.newline) : (mode.read s c b r).next.inLineComment = false := by
  cases mode with
  | baseline => cases h
  | literalAware =>
    rcases s.of_advance_eq_two h with hslash | hstar | hline
    · rw [hr] at hslash
      cases hslash
    · rw [hr] at hstar
      cases hstar
    · exact hline

/-- Two bytes further on the searches are in step again, once that through the second text has passed
what is left of a line break. -/
theorem exists_inStep_two {b : UInt8} {r r' : List UInt8} (h : bs.drop o = b :: r) (h' : bs'.drop o' = b :: r')
    (hr : Respaced breaks r r') (hs : r.head? = some Byte.newline → s.inLineComment = false) :
    ∃ q, mode.solid s (.atOffset bs' (o' + 2)) = mode.solid s (.atOffset bs' q) ∧ InStep breaks bs bs' (o + 2) q := by
  have hdrop : bs.drop (o + 1) = r := drop_of_cons h
  have hdrop' : bs'.drop (o' + 1) = r' := drop_of_cons h'
  cases hr with
  | nil =>
    have hend {l : List UInt8} {n : Nat} (hl : l.drop (n + 1) = []) : l.drop (n + 2) = [] := by
      rw [List.drop_eq_nil_iff] at hl ⊢
      omega
    refine ⟨o' + 2, rfl, ?_, ?_⟩
    · rw [hend hdrop, hend hdrop']
      exact .nil
    · rw [Cursor.before_atOffset_succ, Cursor.before_atOffset_succ, ← List.head?_drop, ← List.head?_drop, hdrop, hdrop']
  | byte _ hr => exact ⟨o' + 2, rfl, InStep.byte hdrop hdrop' hr⟩
  | @newline w _ r' _ hr =>
    refine ⟨o' + 1 + w.text.length, ?_, InStep.lineBreak hdrop hdrop' hr⟩
    obtain ⟨a, t, ht⟩ := w.exists_text_eq_cons
    have hrest : (Cursor.atOffset bs' (o' + 2)).rest = t ++ r' := by
      rw [Cursor.rest_atOffset]
      exact drop_of_cons (by rw [hdrop', ht]; rfl)
    rw [mode.solid_of_whites s hrest (fun x hx => w.white_of_mem_text (by simp [ht, hx])) (fun _ => hs rfl),
      Cursor.skip_atOffset, ht, List.length_cons]
    congr 2
    omega

/-- The bytes that count and are not white are the same in both texts. -/
theorem forall₂_solid (h : InStep breaks bs bs' o o') :
    List.Forall₂ (Corresponds breaks bs bs') (mode.solid s (.atOffset bs o)) (mode.solid s (.atOffset bs' o')) := by
  -- a step may read two bytes
  induction hn : (bs.drop o).length using Nat.strongRecOn generalizing s o o' with
  | ind n ih =>
    have hrest := h.rest
    generalize hl : bs.drop o = l at hrest
    generalize hl' : bs'.drop o' = l' at hrest
    rw [← Cursor.rest_atOffset] at hl hl'
    cases hrest with
    | nil =>
      rw [mode.solid_of_nil s hl, mode.solid_of_nil s hl']
      exact .nil
    | @newline w r r' _ hr =>
      rw [mode.solid_of_white s hl rfl, mode.solid_of_lineBreak s hl', Cursor.skip_atOffset, Cursor.skip_atOffset]
      rw [Cursor.rest_atOffset] at hl hl'
      exact ih _ (by simp [← hn, hl, drop_of_cons hl]) _ (.lineBreak hl hl' hr) rfl
    | @byte b r r' _ hr =>
      have hread : mode.read s (.atOffset bs o) b r = mode.read s (.atOffset bs' o') b r' := mode.read_congr s h hr
      rw [mode.solid_of_cons s hl, mode.solid_of_cons s hl', ← hread]
      have hdecrease := mode.length_rest_skip_read s _ hl
      have hadvance := mode.advance_read s (.atOffset bs o) b r
      have htwo := mode.of_advance_read_eq_two s (c := .atOffset bs o) (b := b) (r := r)
      have hcode (a : UInt8) := mode.eq_of_code_read s (.atOffset bs o) b r (a := a)
      generalize mode.read s (.atOffset bs o) b r = step at hdecrease hadvance htwo hcode ⊢
      simp only [Cursor.skip_atOffset, Cursor.offset_atOffset, Cursor.rest_atOffset, hn] at hdecrease hl hl' ⊢
      apply List.rel_append
      · exact h.forall₂_code hl hcode
      · rcases hadvance with h1 | h2
        · rw [h1] at hdecrease ⊢
          exact ih _ hdecrease step.next (.byte hl hl' hr) rfl
        · obtain ⟨q, hq, hstep⟩ := mode.exists_inStep_two step.next hl hl' hr (htwo h2)
          rw [h2] at hdecrease ⊢
          rw [hq]
          exact ih _ hdecrease step.next hstep rfl

end SignatureMode

/-! ## Closing brackets -/

namespace Brackets

/-- No bracket of this kind is white, nor what breaks a search off. -/
def Solid (k : Brackets) : Prop := ∀ b, Byte.isWhite b → b ≠ k.left ∧ b ≠ k.right ∧ k.breaker ≠ some b

theorem solid_braces : braces.Solid := by
  intro b hb
  refine ⟨?_, ?_, by simp [braces]⟩
  · rintro rfl
    cases hb
  · rintro rfl
    cases hb

theorem solid_parens : parens.Solid := by
  intro b hb
  refine ⟨?_, ?_, ?_⟩
  · rintro rfl
    cases hb
  · rintro rfl
    cases hb
  · rintro ⟨⟩
    cases hb

variable {k : Brackets}

theorem closing_filter (hk : k.Solid) (depth : Nat) (l : List (Nat × UInt8)) :
    k.closing depth (l.filter (!Byte.isWhite ·.2)) = k.closing depth l := by
  induction l generalizing depth with
  | nil => rfl
  | cons x l ih =>
    obtain ⟨p, b⟩ := x
    by_cases hb : Byte.isWhite b
    · obtain ⟨hleft, hright, hbreaker⟩ := hk b hb
      have hends : k.ends depth (some b) = false := by
        rw [Bool.eq_false_iff, Ne, ends_iff]
        simp [hright, hbreaker]
      have hdepth : k.depthAfter depth (some b) = depth := by simp [depthAfter, hleft, hright]
      rw [List.filter_cons_of_neg (by simp [hb]), ih, closing, hends, hdepth]
      rfl
    · rw [List.filter_cons_of_pos (by simp [hb]), closing, closing, ih]

/-- Searches through two lists of the same bytes come to corresponding places. -/
theorem closing_forall₂ {R : Nat × UInt8 → Nat × UInt8 → Prop} (hR : ∀ x x', R x x' → x.2 = x'.2)
    {l l' : List (Nat × UInt8)} (h : List.Forall₂ R l l') (depth : Nat) :
    Option.Rel (fun p p' => R (p, k.right) (p', k.right)) (k.closing depth l) (k.closing depth l') := by
  induction h generalizing depth with
  | nil => exact .none
  | @cons x x' l l' hx _ ih =>
    obtain ⟨p, b⟩ := x
    obtain ⟨p', b'⟩ := x'
    obtain rfl : b = b' := hR _ _ hx
    rw [closing, closing]
    split
    · split
      next hb =>
        rw [← hb]
        exact .some hx
      · exact .none
    · exact ih _

end Brackets

/-- Related values stay related under functions that keep the relation. -/
theorem rel_map {α β γ δ : Type} {R : α → β → Prop} {S : γ → δ → Prop} {f : α → γ} {g : β → δ} {x : Option α}
    {y : Option β} (h : Option.Rel R x y) (hfg : ∀ a b, R a b → S (f a) (g b)) :
    Option.Rel S (x.map f) (y.map g) := by
  cases h with
  | none => exact .none
  | some h => exact .some (hfg _ _ h)

namespace SignatureMode

variable (mode : SignatureMode) {breaks : LineBreak → Prop}

/-- Brackets close at corresponding places. -/
theorem closing_respaced {k : Brackets} (hk : k.Solid) {l l' : List UInt8} (h : Respaced breaks l l') :
    Option.Rel (fun p p' => Corresponds breaks l l' (p, k.right) (p', k.right))
      (k.closing 0 (mode.counted .plain (.start l))) (k.closing 0 (mode.counted .plain (.start l'))) := by
  have hstart : InStep breaks l l' 0 0 := ⟨h, Iff.rfl⟩
  have hrel := Brackets.closing_forall₂ (k := k) (fun x x' hx => hx.same) (mode.forall₂_solid .plain hstart) 0
  rwa [solid, solid, Brackets.closing_filter hk, Brackets.closing_filter hk] at hrel

theorem close?_respaced {c c' : Cursor} (h : Respaced breaks c.rest c'.rest) :
    Option.Rel (fun d d' => Respaced breaks d.rest d'.rest) (mode.close? c) (mode.close? c') := by
  have hrel := mode.closing_respaced Brackets.solid_parens h
  rw [close?_start, close?_start]
  apply rel_map hrel
  intro p p' hp
  rw [Cursor.rest_skip, Cursor.rest_skip]
  have hne : Byte.rightParen ≠ Byte.newline := by decide
  exact hp.behind hne

end SignatureMode

end BodyLength
