import BodyLength.Scan.Body
import BodyLength.Scan.Signature
import Mathlib.Logic.Relation
/-!
# Searches for a closing bracket

The search for the end of a body and the one for the end of a parameter list are one search
for different brackets. It only sees the bytes that count and their offsets, so it is a
recursion on their list: `Brackets.closing`. `searchFrom_never` and `closeFrom_eq` say that
both searches compute it.
-/

namespace BodyLength

/-- A kind of brackets that a search pairs. -/
structure Brackets where
  left : UInt8
  right : UInt8
  /-- What ends the search in vain between the outermost brackets. -/
  breaker : Option UInt8
  left_ne_right : left ≠ right := by decide
  breaker_ne_left : breaker ≠ some left := by decide
  breaker_ne_right : breaker ≠ some right := by decide

namespace Brackets

def braces : Brackets where
  left := Byte.leftBrace
  right := Byte.rightBrace
  breaker := none

def parens : Brackets where
  left := Byte.leftParen
  right := Byte.rightParen
  breaker := some Byte.semicolon

variable (k : Brackets)

/-- How many inner brackets are to be closed after a step that yields `code`, if `depth` were
before. -/
def depthAfter (depth : Nat) (code : Option UInt8) : Nat :=
  if code = some k.left then depth + 1 else if code = some k.right then depth - 1 else depth

/-- Whether a step that yields `code` ends the search. -/
def ends (depth : Nat) (code : Option UInt8) : Bool :=
  depth == 0 && code.any fun b => b == k.right || some b == k.breaker

/-- The offset of the closing bracket among the bytes that count, with `depth` inner brackets
still to close. -/
def closing (depth : Nat) : List (Nat × UInt8) → Option Nat
  | [] => none
  | (p, b) :: l =>
    if k.ends depth (some b) then if b = k.right then some p else none
    else closing (k.depthAfter depth (some b)) l

variable {k}

theorem ends_iff {depth : Nat} {code : Option UInt8} :
    k.ends depth code ↔ depth = 0 ∧ ∃ b, code = some b ∧ (b = k.right ∨ k.breaker = some b) := by
  rw [ends, Bool.and_eq_true, beq_iff_eq, Option.any_eq_true]
  simp only [Bool.or_eq_true, beq_iff_eq, eq_comm (a := k.breaker)]

theorem ends_braces {depth : Nat} {code : Option UInt8} :
    braces.ends depth code ↔ code = some Byte.rightBrace ∧ depth = 0 := by
  rw [ends_iff, and_comm]
  simp [braces]

theorem ends_parens {depth : Nat} {code : Option UInt8} :
    parens.ends depth code ↔ (code = some Byte.rightParen ∨ code = some Byte.semicolon) ∧ depth = 0 := by
  rw [ends_iff, and_comm]
  simp only [parens, Option.some.injEq]
  constructor
  · rintro ⟨⟨b, rfl, rfl | rfl⟩, h⟩
    · exact ⟨.inl rfl, h⟩
    · exact ⟨.inr rfl, h⟩
  · rintro ⟨h | h, hd⟩
    · exact ⟨⟨_, h, .inl rfl⟩, hd⟩
    · exact ⟨⟨_, h, .inr rfl⟩, hd⟩

theorem mem_of_closing {depth p : Nat} {l : List (Nat × UInt8)} (h : k.closing depth l = some p) :
    (p, k.right) ∈ l := by
  induction l generalizing depth with
  | nil => cases h
  | cons x l ih =>
    obtain ⟨q, b⟩ := x
    rw [closing] at h
    split at h
    · split at h
      · simp_all
      · cases h
    · exact List.mem_cons_of_mem _ (ih h)

/-- Moving all bytes by the same distance moves the closing bracket with them. -/
theorem closing_map_add (n depth : Nat) (l : List (Nat × UInt8)) :
    k.closing depth (l.map fun x => (x.1 + n, x.2)) = (k.closing depth l).map (· + n) := by
  induction l generalizing depth with
  | nil => rfl
  | cons x l ih =>
    obtain ⟨q, b⟩ := x
    simp only [List.map_cons, closing, ih]
    split
    · split <;> rfl
    · rfl

/-- A step that does not end the search only changes the depth. -/
theorem closing_of_not_ends {depth : Nat} {code : Option UInt8} (h : k.ends depth code = false) (p : Nat)
    (l : List (Nat × UInt8)) :
    k.closing depth ((code.map (p, ·)).toList ++ l) = k.closing (k.depthAfter depth code) l := by
  cases code with
  | none => rfl
  | some b =>
    show k.closing depth ((p, b) :: l) = _
    rw [closing, h]
    rfl

end Brackets

/-! ## The search for a closing brace -/

/-- What a search for a closing brace comes to. -/
def BraceMatch.ofOffset? : Option Nat → BraceMatch
  | some p => .closed p
  | none => .unbalanced

theorem BraceMatch.searchFrom_never (asked depth : Nat) (s : LexState) (c : Cursor) :
    (searchFrom .never asked depth s c).1 = ofOffset? (Brackets.braces.closing depth (s.code c)) := by
  fun_induction searchFrom .never asked depth s c with
  | case1 asked depth s c hc =>
    rw [s.code_of_nil hc]
    rfl
  | case2 _ _ _ _ _ _ _ h => cases h
  | case3 asked depth s c b r hc _ step h =>
    obtain ⟨hb, rfl⟩ := h
    rw [s.code_of_cons hc, show (s.stepAt c b r).code = some Byte.rightBrace from hb]
    rfl
  | case4 asked depth s c b r hc _ step h ih =>
    have he : Brackets.braces.ends depth step.code = false := by
      rwa [Bool.eq_false_iff, Ne, Brackets.ends_braces]
    rw [ih, s.code_of_cons hc, Brackets.closing_of_not_ends he]
    rfl

theorem BraceMatch.search_never (asked : Nat) (c : Cursor) : (search .never asked c).1 =
    ofOffset? (Brackets.braces.closing 0 (LexState.plain.code (c.skip 1))) :=
  searchFrom_never ..

theorem BraceMatch.ofOffset?_eq_closed {x : Option Nat} {p : Nat} : ofOffset? x = .closed p ↔ x = some p := by
  cases x <;> simp [ofOffset?]

theorem BraceMatch.ofOffset?_eq_unbalanced {x : Option Nat} : ofOffset? x = .unbalanced ↔ x = none := by
  cases x <;> simp [ofOffset?]

theorem BraceMatch.search_eq_closed {bs : List UInt8} {o c : Nat} :
    (search .never 0 (.atOffset bs o)).1 = .closed c ↔
      Brackets.braces.closing 0 (LexState.plain.code (.atOffset bs (o + 1))) = some c := by
  rw [search_never, Cursor.skip_atOffset, ofOffset?_eq_closed]

theorem BraceMatch.search_eq_unbalanced {bs : List UInt8} {o : Nat} :
    (search .never 0 (.atOffset bs o)).1 = .unbalanced ↔
      Brackets.braces.closing 0 (LexState.plain.code (.atOffset bs (o + 1))) = none := by
  rw [search_never, Cursor.skip_atOffset, ofOffset?_eq_unbalanced]

/-! ## The search for a closing parenthesis -/

namespace SignatureMode

/-- The bytes that count from a place in a parameter list on, with their offsets. -/
def counted (mode : SignatureMode) (s : LexState) (c : Cursor) : List (Nat × UInt8) :=
  match mode with
  | .baseline => (c.rest.zipIdx c.offset).map Prod.swap
  | .literalAware => s.code c

theorem counted_of_nil (mode : SignatureMode) (s : LexState) {c : Cursor} (h : c.rest = []) :
    mode.counted s c = [] := by
  cases mode with
  | baseline => simp [counted, h]
  | literalAware => exact s.code_of_nil h

theorem counted_of_cons (mode : SignatureMode) (s : LexState) {c : Cursor} {b : UInt8} {r : List UInt8}
    (h : c.rest = b :: r) : mode.counted s c = ((mode.read s c b r).code.map (c.offset, ·)).toList ++
      mode.counted (mode.read s c b r).next (c.skip (mode.read s c b r).advance) := by
  cases mode with
  | baseline => simp [counted, read, h]
  | literalAware => exact s.code_of_cons h

theorem advance_read_pos (mode : SignatureMode) (s : LexState) (c : Cursor) (b : UInt8) (r : List UInt8) :
    0 < (mode.read s c b r).advance := by
  cases mode with
  | baseline => exact Nat.one_pos
  | literalAware => rcases s.advance_step c.before b r.head? with h | h <;> simp [read, LexState.stepAt, h]

/-- The bytes that count stand in ascending order, none before the place. -/
theorem counted_ascending (mode : SignatureMode) (s : LexState) (c : Cursor) :
    (mode.counted s c).Pairwise (·.1 < ·.1) ∧ ∀ x ∈ mode.counted s c, c.offset ≤ x.1 := by
  -- a step may read two bytes
  induction hn : c.rest.length using Nat.strongRecOn generalizing s c with
  | ind n ih =>
    cases hc : c.rest with
    | nil => simp [counted_of_nil mode s hc]
    | cons b r =>
      have hlt := mode.length_rest_skip_read s c hc
      have hpos := mode.advance_read_pos s c b r
      obtain ⟨hp, hm⟩ := ih _ (hn ▸ hlt) (mode.read s c b r).next _ rfl
      have hlow : ∀ x ∈ mode.counted (mode.read s c b r).next (c.skip (mode.read s c b r).advance),
          c.offset < x.1 := by
        intro x hx
        have := hm x hx
        rw [Cursor.offset_skip] at this
        omega
      rw [mode.counted_of_cons s hc]
      cases (mode.read s c b r).code with
      | none => exact ⟨hp, fun x hx => Nat.le_of_lt (hlow x hx)⟩
      | some a =>
        refine ⟨List.pairwise_cons.2 ⟨fun x hx => hlow x hx, hp⟩, fun x hx => ?_⟩
        rcases List.mem_cons.1 hx with rfl | hx
        · exact Nat.le_refl _
        · exact Nat.le_of_lt (hlow x hx)

theorem eq_of_code_read (mode : SignatureMode) (s : LexState) (c : Cursor) (b : UInt8) (r : List UInt8) {a : UInt8}
    (h : (mode.read s c b r).code = some a) : a = b := by
  cases mode with
  | baseline => exact (Option.some.inj h).symm
  | literalAware => exact (s.advance_step_of_code _ _ _ _ h).1

/-- The bytes that count are bytes of the text. -/
theorem getElem?_rest_of_mem_counted (mode : SignatureMode) (s : LexState) {c : Cursor} {x : Nat × UInt8}
    (h : x ∈ mode.counted s c) : c.rest[x.1 - c.offset]? = some x.2 := by
  induction hn : c.rest.length using Nat.strongRecOn generalizing s c with
  | ind n ih =>
    cases hc : c.rest with
    | nil =>
      rw [mode.counted_of_nil s hc] at h
      cases h
    | cons b r =>
      have hlt := mode.length_rest_skip_read s c hc
      rw [mode.counted_of_cons s hc] at h
      rcases List.mem_append.1 h with h | h
      · simp only [Option.mem_toList, Option.map_eq_some_iff] at h
        obtain ⟨a, ha, rfl⟩ := h
        rw [mode.eq_of_code_read s c b r ha, Nat.sub_self, List.getElem?_cons_zero]
      · have hle := (mode.counted_ascending _ _).2 _ h
        have hx := ih _ (hn ▸ hlt) _ h rfl
        rw [Cursor.offset_skip] at hle hx
        rw [Cursor.rest_skip, List.getElem?_drop, hc] at hx
        rw [← hx]
        congr 1
        omega

theorem getElem?_of_mem_counted (mode : SignatureMode) (s : LexState) {bs : List UInt8} {o : Nat} {x : Nat × UInt8}
    (h : x ∈ mode.counted s (.atOffset bs o)) : bs[x.1]? = some x.2 := by
  have hle := (mode.counted_ascending _ _).2 _ h
  have hx := mode.getElem?_rest_of_mem_counted s h
  rw [Cursor.offset_atOffset] at hle hx
  rwa [Cursor.rest_atOffset, List.getElem?_drop, Nat.add_sub_of_le hle] at hx

theorem le_of_closing (mode : SignatureMode) {k : Brackets} {depth p : Nat} {s : LexState} {c : Cursor}
    (h : k.closing depth (mode.counted s c) = some p) : c.offset ≤ p :=
  (mode.counted_ascending s c).2 _ (Brackets.mem_of_closing h)

/-- The closing bracket is a byte of the text from the place of the search on. -/
theorem place_of_closing (mode : SignatureMode) {k : Brackets} {depth p : Nat} {s : LexState} {bs : List UInt8} {o : Nat}
    (h : k.closing depth (mode.counted s (.atOffset bs o)) = some p) : o ≤ p ∧ bs[p]? = some k.right := by
  have hle := mode.le_of_closing h
  rw [Cursor.offset_atOffset] at hle
  exact ⟨hle, mode.getElem?_of_mem_counted s (Brackets.mem_of_closing h)⟩

/-- One step of the search moves on without changing the place it comes to. -/
theorem closing_of_cons (mode : SignatureMode) (s : LexState) {c : Cursor} {b : UInt8} {r : List UInt8}
    (h : c.rest = b :: r) {depth : Nat} (he : Brackets.parens.ends depth (mode.read s c b r).code = false) :
    ((Brackets.parens.closing depth (mode.counted s c)).map fun p => c.skip (p + 1 - c.offset)) =
      (Brackets.parens.closing (Brackets.parens.depthAfter depth (mode.read s c b r).code)
        (mode.counted (mode.read s c b r).next (c.skip (mode.read s c b r).advance))).map fun p =>
          (c.skip (mode.read s c b r).advance).skip (p + 1 - (c.skip (mode.read s c b r).advance).offset) := by
  rw [mode.counted_of_cons s h, Brackets.closing_of_not_ends he]
  refine Option.map_congr fun p hp => ?_
  have hle := mode.le_of_closing hp
  rw [Cursor.offset_skip] at hle ⊢
  rw [Cursor.skip_skip]
  congr 1
  omega

theorem closeFrom_eq (mode : SignatureMode) (depth : Nat) (s : LexState) (c : Cursor) :
    mode.closeFrom depth s c =
      (Brackets.parens.closing depth (mode.counted s c)).map fun p => c.skip (p + 1 - c.offset) := by
  fun_induction closeFrom mode depth s c with
  | case1 depth s c hc =>
    rw [mode.counted_of_nil s hc]
    rfl
  | case2 depth s c b r hc step h ih =>
    have he : Brackets.parens.ends depth step.code = false := by
      rw [h]
      exact Bool.and_eq_false_iff.2 (.inr rfl)
    have hd : Brackets.parens.depthAfter depth step.code = depth + 1 := by rw [h]; rfl
    rw [ih, mode.closing_of_cons s hc he, hd]
  | case3 s c b r hc step _ h =>
    rw [mode.counted_of_cons s hc, show (mode.read s c b r).code = some Byte.rightParen from h]
    show some (c.skip 1) = some (c.skip (c.offset + 1 - c.offset))
    rw [Nat.add_sub_cancel_left]
  | case4 depth s c b r hc step _ h hpos ih =>
    have he : Brackets.parens.ends depth step.code = false := by simp [Brackets.ends, hpos]
    have hd : Brackets.parens.depthAfter depth step.code = depth - 1 := by rw [h]; rfl
    rw [ih, mode.closing_of_cons s hc he, hd]
  | case5 depth s c b r hc step _ _ h =>
    obtain ⟨hs, rfl⟩ := h
    rw [mode.counted_of_cons s hc, show (mode.read s c b r).code = some Byte.semicolon from hs]
    rfl
  | case6 depth s c b r hc step hl hr h ih =>
    have hd : Brackets.parens.depthAfter depth step.code = depth := (if_neg hl).trans (if_neg hr)
    have he : Brackets.parens.ends depth step.code = false := by
      rw [Bool.eq_false_iff, Ne, Brackets.ends_parens, or_and_right, not_or]
      exact ⟨fun hs => hr hs.1, h⟩
    rw [ih, mode.closing_of_cons s hc he, hd]

theorem close?_eq (mode : SignatureMode) (c : Cursor) : mode.close? c =
    (Brackets.parens.closing 0 (mode.counted .plain c)).map fun p => c.skip (p + 1 - c.offset) :=
  mode.closeFrom_eq ..

theorem offset_close? (mode : SignatureMode) (c : Cursor) : (mode.close? c).map (·.offset) =
    (Brackets.parens.closing 0 (mode.counted .plain c)).map (· + 1) := by
  rw [close?_eq, Option.map_map]
  refine Option.map_congr fun p hp => ?_
  have hle := mode.le_of_closing hp
  simp only [Function.comp, Cursor.offset_skip] at hle ⊢
  omega

end SignatureMode

end BodyLength
