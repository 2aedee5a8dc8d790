import BodyLength.Proofs.Brackets.Balance
/-!
# Nested bodies

The search for the end of an inner body has a lexer of its own, which starts afresh. Where the search through
the outer body comes to a brace of code, its lexer is in plain code as well, so both read the same code
behind that brace (`exists_code_behind`). The inner brackets are closed before the others (`closing_inner`),
so the inner body ends before the outer one, and the bodies inside a body nest (`bodies_nest`).
-/

namespace BodyLength

/-! ## Code behind a byte of code -/

namespace LexState

variable {s : LexState} {p n : Option UInt8} {b : UInt8}

theorem next_stepCode_of_code (h : (s.stepCode b n).code = some b) : (s.stepCode b n).next = s := by
  revert h
  unfold stepCode
  repeat' split
  all_goals simp

/-- Only the newline that ends a comment is code without being read in plain code. -/
theorem plain_of_code (h : (s.step p b n).code = some b) (hb : b ≠ Byte.newline) :
    s = plain ∧ (s.step p b n).next = plain := by
  unfold step at h ⊢
  split at h
  next hc =>
    unfold stepComment at h
    split at h
    next hn => exact absurd hn.2 hb
    · split at h <;> cases h
  next hc =>
    split at h
    next hl =>
      unfold stepLiteral at h
      repeat' split at h
      all_goals cases h
    next hl =>
      have hs : s = plain := by
        obtain ⟨_, _, _, _⟩ := s
        simp_all [inComment, inLiteral, plain]
      rw [if_neg hc, if_neg hl, next_stepCode_of_code h]
      exact ⟨hs, hs⟩

/-- Behind a byte of code, the code is what a lexer reads that starts there. -/
theorem exists_code_behind {bs : List UInt8} {o : Nat} {x : Nat × UInt8} (h : x ∈ s.code (.atOffset bs o))
    (hx : x.2 ≠ Byte.newline) :
    ∃ l, s.code (.atOffset bs o) = l ++ x :: plain.code (.atOffset bs (x.1 + 1)) ∧ ∀ y ∈ l, y.1 < x.1 := by
  suffices hsplit : ∃ l, s.code (.atOffset bs o) = l ++ x :: plain.code (.atOffset bs (x.1 + 1)) by
    obtain ⟨l, hl⟩ := hsplit
    have hascending := (SignatureMode.literalAware.counted_ascending s (.atOffset bs o)).1
    rw [SignatureMode.counted, hl, List.pairwise_append] at hascending
    exact ⟨l, hl, fun y hy => hascending.2.2 y hy x List.mem_cons_self⟩
  -- a step may read two bytes
  induction hn : (bs.drop o).length using Nat.strongRecOn generalizing s o with
  | ind n ih =>
    cases hr : bs.drop o with
    | nil =>
      rw [s.code_of_nil ((Cursor.rest_atOffset ..).trans hr)] at h
      cases h
    | cons b r =>
      have hrest : (Cursor.atOffset bs o).rest = b :: r := (Cursor.rest_atOffset ..).trans hr
      have hlt := s.length_rest_skip_stepAt _ hrest
      rw [s.code_of_cons hrest] at h ⊢
      rw [Cursor.offset_atOffset, Cursor.skip_atOffset] at h ⊢
      rcases List.mem_append.1 h with hhead | htail
      · rw [Option.mem_toList, Option.map_eq_some_iff] at hhead
        obtain ⟨a, ha, rfl⟩ := hhead
        obtain ⟨rfl, hadvance⟩ := s.advance_step_of_code _ _ _ _ ha
        obtain ⟨-, hnext⟩ := plain_of_code ha hx
        refine ⟨[], ?_⟩
        rw [ha, stepAt, hnext, hadvance]
        rfl
      · rw [Cursor.skip_atOffset, Cursor.rest_atOffset, Cursor.rest_atOffset, hn] at hlt
        obtain ⟨l, hl⟩ := ih _ hlt htail rfl
        rw [hl, ← List.append_assoc]
        exact ⟨_, rfl⟩

theorem mem_code_behind {bs : List UInt8} {o : Nat} {x y : Nat × UInt8} (h : x ∈ s.code (.atOffset bs o))
    (hx : x.2 ≠ Byte.newline) (hy : y ∈ s.code (.atOffset bs o)) (hlt : x.1 < y.1) :
    y ∈ plain.code (.atOffset bs (x.1 + 1)) := by
  obtain ⟨l, hl, hfront⟩ := exists_code_behind h hx
  rw [hl, List.mem_append, List.mem_cons] at hy
  rcases hy with hy | rfl | hy
  · exact absurd hlt (Nat.lt_asymm (hfront y hy))
  · exact absurd hlt (Nat.lt_irrefl _)
  · exact hy

end LexState

/-! ## Inner brackets -/

namespace Brackets

variable {k : Brackets}

/-- A search that ends behind the bytes `l` goes on behind them with some depth. -/
theorem exists_closing_behind {depth p : Nat} {l m : List (Nat × UInt8)} (h : k.closing depth (l ++ m) = some p)
    (hl : ∀ x ∈ l, x.1 < p) : ∃ d, k.closing d m = some p := by
  induction l generalizing depth with
  | nil => exact ⟨depth, h⟩
  | cons x l ih =>
    obtain ⟨q, b⟩ := x
    rw [List.cons_append, closing] at h
    split at h
    · split at h
      · have hlt := hl (q, b) List.mem_cons_self
        rw [Option.some.injEq] at h
        exact absurd h (Nat.ne_of_lt hlt)
      · cases h
    · exact ih h fun x hx => hl x (List.mem_cons_of_mem _ hx)

theorem closing_cons_left {depth q : Nat} {l : List (Nat × UInt8)} :
    k.closing depth ((q, k.left) :: l) = k.closing (depth + 1) l := by
  have hends : k.ends depth (some k.left) = false := by
    rw [Bool.eq_false_iff, Ne, ends_iff]
    rintro ⟨-, b, hb, hright | hbreaker⟩
    · exact k.left_ne_right (Option.some.inj hb ▸ hright)
    · exact k.breaker_ne_left (hb ▸ hbreaker)
  rw [closing, hends, depthAfter, if_pos rfl]
  rfl

/-- A byte that does not end the inner search has the same part in the depth of both. -/
theorem depthAfter_add {outer inner : Nat} {b : UInt8} (h : k.ends inner (some b) = false) :
    k.depthAfter (outer + inner + 1) (some b) = outer + k.depthAfter inner (some b) + 1 := by
  unfold depthAfter
  split
  · omega
  · split
    next hright =>
      have hpos : inner ≠ 0 := by
        rintro rfl
        simp [ends, Option.some.inj hright] at h
      omega
    · rfl

/-- If nothing breaks searches off, the inner brackets close first and the search for the end of the outer
ones goes on from there. -/
theorem closing_inner (hk : k.breaker = none) (outer inner : Nat) {p : Nat} {l : List (Nat × UInt8)}
    (h : k.closing (outer + inner + 1) l = some p) :
    ∃ q l₁ l₂, k.closing inner l = some q ∧ l = l₁ ++ (q, k.right) :: l₂ ∧ k.closing outer l₂ = some p := by
  induction l generalizing inner with
  | nil => cases h
  | cons x l ih =>
    obtain ⟨q, b⟩ := x
    have houter : k.ends (outer + inner + 1) (some b) = false := rfl
    rw [closing, houter] at h
    by_cases hends : k.ends inner (some b)
    · obtain ⟨rfl, _, heq, hb⟩ := ends_iff.1 hends
      cases heq
      obtain rfl : b = k.right := hb.resolve_right (by simp [hk])
      refine ⟨q, [], l, ?_, rfl, ?_⟩
      · rw [closing, hends, if_pos rfl, if_pos rfl]
      · have hdepth : k.depthAfter (outer + 0 + 1) (some k.right) = outer := by
          simp [depthAfter, k.left_ne_right.symm]
        rwa [hdepth] at h
    · rw [Bool.not_eq_true] at hends
      rw [depthAfter_add hends] at h
      obtain ⟨q', l₁, l₂, hinner, rfl, hp⟩ := ih _ h
      refine ⟨q', (q, b) :: l₁, l₂, ?_, rfl, hp⟩
      rw [closing, hends]
      exact hinner

end Brackets

/-! ## Bodies inside a body -/

namespace BraceMatch

variable {bs : List UInt8} {outer close o o' c c' : Nat}

/-- A body that opens inside another one closes inside it. -/
theorem exists_inner_close (h : Brackets.braces.closing 0 (LexState.plain.code (.atOffset bs (outer + 1))) = some close)
    (ho : o < close) (hmem : (o, Byte.leftBrace) ∈ LexState.plain.code (.atOffset bs (outer + 1))) :
    ∃ c, Brackets.braces.closing 0 (LexState.plain.code (.atOffset bs (o + 1))) = some c ∧ c < close ∧
      (c, Byte.rightBrace) ∈ LexState.plain.code (.atOffset bs (outer + 1)) := by
  obtain ⟨l, hl, hfront⟩ := LexState.exists_code_behind hmem (by decide : Byte.leftBrace ≠ Byte.newline)
  rw [hl] at h ⊢
  obtain ⟨d, hd⟩ := Brackets.exists_closing_behind h fun x hx => Nat.lt_trans (hfront x hx) ho
  obtain ⟨c, l₁, l₂, hc, hm, hclose⟩ := Brackets.closing_inner rfl d 0 (Brackets.closing_cons_left.symm.trans hd)
  refine ⟨c, hc, ?_, List.mem_append_right l (List.mem_cons_of_mem _ (Brackets.mem_of_closing hc))⟩
  -- the outer search goes on behind the inner closing brace
  have hascending := (SignatureMode.literalAware.counted_ascending .plain (.atOffset bs (o + 1))).1
  rw [SignatureMode.counted, hm, List.pairwise_append, List.pairwise_cons] at hascending
  exact hascending.2.1.1 _ (Brackets.mem_of_closing hclose)

/-- Two bodies, from `o` to `c` and from `o'` to `c'`, are disjoint or one lies strictly inside the other. -/
def Laminar (o c o' c' : Nat) : Prop := (c < o' ∨ c' < o) ∨ (o < o' ∧ c' < c) ∨ (o' < o ∧ c < c')

/-- Of two bodies of the same code, the later one starts behind the end of the earlier one or ends before it. -/
theorem before_or_inside (hmem : (o, Byte.leftBrace) ∈ LexState.plain.code (.atOffset bs (outer + 1)))
    (hmem' : (o', Byte.leftBrace) ∈ LexState.plain.code (.atOffset bs (outer + 1)))
    (hc : Brackets.braces.closing 0 (LexState.plain.code (.atOffset bs (o + 1))) = some c)
    (hc' : Brackets.braces.closing 0 (LexState.plain.code (.atOffset bs (o' + 1))) = some c') (hlt : o < o') :
    c < o' ∨ c' < c := by
  obtain ⟨-, hbyte⟩ := SignatureMode.literalAware.place_of_closing hc
  have hbyte' := SignatureMode.literalAware.getElem?_of_mem_counted .plain hmem'
  have hne : c ≠ o' := by
    rintro rfl
    exact Brackets.braces.left_ne_right (Option.some.inj (hbyte'.symm.trans hbyte))
  by_cases hinside : o' < c
  · right
    -- the search through the earlier body comes to the later one, as the outer search does
    have hbehind : (o', Byte.leftBrace) ∈ LexState.plain.code (.atOffset bs (o + 1)) :=
      LexState.mem_code_behind hmem (by decide : Byte.leftBrace ≠ Byte.newline) hmem' hlt
    obtain ⟨q, hq, hqc, -⟩ := exists_inner_close hc hinside hbehind
    rw [hc', Option.some.injEq] at hq
    rwa [hq]
  · left
    omega

/-! ## Main theorem -/

/-- Each body that opens inside a body closes inside it, at a brace of its code, and any two of them
close at different places, disjoint or one inside the other. -/
theorem bodies_nest (h : (search .never 0 (.atOffset bs outer)).1 = .closed close) :
    (∀ o < close, (o, Byte.leftBrace) ∈ LexState.plain.code (.atOffset bs (outer + 1)) →
        ∃ c, (search .never 0 (.atOffset bs o)).1 = .closed c ∧ o < c ∧ c < close ∧
          (c, Byte.rightBrace) ∈ LexState.plain.code (.atOffset bs (outer + 1))) ∧
      ∀ o < close, ∀ o' < close, (o, Byte.leftBrace) ∈ LexState.plain.code (.atOffset bs (outer + 1)) →
        (o', Byte.leftBrace) ∈ LexState.plain.code (.atOffset bs (outer + 1)) → o ≠ o' →
        ∀ c c', (search .never 0 (.atOffset bs o)).1 = .closed c → (search .never 0 (.atOffset bs o')).1 = .closed c' →
          c ≠ c' ∧ Laminar o c o' c' := by
  constructor
  · intro o ho hmem
    obtain ⟨c, hc, hclose, hbrace⟩ := exists_inner_close (search_eq_closed.1 h) ho hmem
    exact ⟨c, search_eq_closed.2 hc, (SignatureMode.literalAware.place_of_closing hc).1, hclose, hbrace⟩
  · intro o _ o' _ hmem hmem' hne c c' hc hc'
    rw [search_eq_closed] at hc hc'
    have hoc := (SignatureMode.literalAware.place_of_closing hc).1
    have hoc' := (SignatureMode.literalAware.place_of_closing hc').1
    unfold Laminar
    rcases Nat.lt_or_gt_of_ne hne with hlt | hgt
    · have hor := before_or_inside hmem hmem' hc hc' hlt
      omega
    · have hor := before_or_inside hmem' hmem hc' hc hgt
      omega

/-- The bodies of `{ a{ '{' {} } {} }`: two next to each other, the first with one more inside. -/
theorem bodies_nest_of_siblings :
    let text := bytes "\x7b a\x7b '\x7b' \x7b\x7d \x7d \x7b\x7d \x7d"
    let code := LexState.plain.code (.atOffset text (0 + 1))
    (search .never 0 (.atOffset text 0)).1 = .closed 17 ∧
      (3 < 17 ∧ (3, Byte.leftBrace) ∈ code) ∧ (9 < 17 ∧ (9, Byte.leftBrace) ∈ code) ∧
      (14 < 17 ∧ (14, Byte.leftBrace) ∈ code) ∧
      (∃ c, (search .never 0 (.atOffset text 3)).1 = .closed c ∧ 3 < c ∧ c < 17 ∧ (c, Byte.rightBrace) ∈ code) ∧
      ((search .never 0 (.atOffset text 3)).1 = .closed 12 ∧ (search .never 0 (.atOffset text 9)).1 = .closed 10 ∧
        (search .never 0 (.atOffset text 14)).1 = .closed 15) ∧
      (12 ≠ 10 ∧ Laminar 3 12 9 10) ∧ 12 ≠ 15 ∧ Laminar 3 12 14 15 := by
  intro text code
  have h : (search .never 0 (.atOffset text 0)).1 = .closed 17 := by decide +kernel
  have hfirst : (3, Byte.leftBrace) ∈ code := by decide +kernel
  have hinner : (9, Byte.leftBrace) ∈ code := by decide +kernel
  have hsecond : (14, Byte.leftBrace) ∈ code := by decide +kernel
  have hc : (search .never 0 (.atOffset text 3)).1 = .closed 12 := by decide +kernel
  have hc' : (search .never 0 (.atOffset text 9)).1 = .closed 10 := by decide +kernel
  have hc'' : (search .never 0 (.atOffset text 14)).1 = .closed 15 := by decide +kernel
  obtain ⟨hcloses, hlaminar⟩ := bodies_nest h
  exact ⟨h, ⟨by decide, hfirst⟩, ⟨by decide, hinner⟩, ⟨by decide, hsecond⟩, hcloses 3 (by decide) hfirst,
    ⟨hc, hc', hc''⟩, hlaminar 3 (by decide) 9 (by decide) hfirst hinner (by decide) 12 10 hc hc',
    hlaminar 3 (by decide) 14 (by decide) hfirst hsecond (by decide) 12 15 hc hc''⟩

end BraceMatch

end BodyLength
