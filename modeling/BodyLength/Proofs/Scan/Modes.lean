import BodyLength.Proofs.Brackets.Surroundings
import BodyLength.Proofs.Scan.Bodies
import BodyLength.Proofs.Scan.Openings
/-!
# Texts without literals and comments

The two modes only differ in the bytes that a literal or comment hides. Where none opens, the lexer yields
byte after byte, so both searches for the end of a parameter list go the same way (`haltFrom_literalAware`).
They need not look further than to the place where the first one halts. A whole text without literals and
comments has the same signatures in both modes, and so the same reports.
-/

namespace BodyLength

/-- No literal or comment opens in the text. -/
def Unenclosed (l : List UInt8) : Prop := ∀ e : Enclosure, ¬ e.opening <:+: l

instance (l : List UInt8) : Decidable (Unenclosed l) :=
  decidable_of_iff (∀ e ∈ [Enclosure.string, .char, .lineComment, .blockComment], ¬ e.opening <:+: l)
    ⟨fun h e => h e (by cases e <;> decide), fun h e _ => h e⟩

namespace Unenclosed

variable {l l' : List UInt8}

theorem of_isInfix (h : Unenclosed l) (hl : l' <:+: l) : Unenclosed l' :=
  fun e he => h e (he.trans hl)

theorem drop (h : Unenclosed l) (n : Nat) : Unenclosed (l.drop n) := h.of_isInfix (List.drop_suffix n l).isInfix

/-- A byte behind opens nothing, unless it is a quote or the second byte of what opens a comment. -/
theorem concat (h : Unenclosed l) {b : UInt8} (hb : ∀ e : Enclosure, e.opening.getLast? ≠ some b) :
    Unenclosed (l ++ [b]) := by
  intro e he
  rw [List.infix_concat_iff] at he
  rcases he with ⟨t, ht⟩ | he
  · have hlast := congrArg List.getLast? ht
    rw [List.getLast?_concat, List.getLast?_append] at hlast
    have hne : e.opening ≠ [] := by cases e <;> exact List.cons_ne_nil _ _
    rw [List.getLast?_eq_some_getLast hne, Option.some_or, ← List.getLast?_eq_some_getLast hne] at hlast
    exact hb e hlast
  · exact h e he

/-- The lexer yields the first byte and stays in plain code. It only looks further at a slash. -/
theorem stepAt_plain {b : UInt8} {r : List UInt8} (h : Unenclosed (b :: l)) (hl : b = Byte.slash → r.head? = l.head?)
    (c : Cursor) : LexState.plain.stepAt c b r = ⟨1, some b, .plain⟩ := by
  have hquote (e : Enclosure) (he : e.opening = [b]) : False :=
    h e (he ▸ (List.prefix_append [b] l).isInfix)
  have hpair (e : Enclosure) (a : UInt8) (he : e.opening = [b, a]) (hb : b = Byte.slash) : r.head? ≠ some a := by
    intro ha
    obtain ⟨t, rfl⟩ := List.head?_eq_some_iff.1 ((hl hb).symm.trans ha)
    exact h e (he ▸ (List.prefix_append [b, a] t).isInfix)
  show LexState.plain.stepCode b r.head? = _
  rw [LexState.stepCode, if_neg, if_neg, if_neg, if_neg]
  · rintro ⟨rfl, ha⟩
    exact hpair .blockComment _ rfl rfl ha
  · rintro ⟨rfl, ha⟩
    exact hpair .lineComment _ rfl rfl ha
  · rintro rfl
    exact hquote .char rfl
  · rintro rfl
    exact hquote .string rfl

end Unenclosed

/-! ## Where a search halts -/

namespace SignatureMode

/-- Where the search for the end of a parameter list halts: at the closing parenthesis, at a semicolon
between the outermost parentheses, or at the end of the text. -/
def haltFrom (mode : SignatureMode) (depth : Nat) (s : LexState) (c : Cursor) : Cursor :=
  match _h : c.rest with
  | [] => c
  | b :: r =>
    let step := mode.read s c b r
    if Brackets.parens.ends depth step.code then c
    else haltFrom mode (Brackets.parens.depthAfter depth step.code) step.next (c.skip step.advance)
termination_by c.rest.length
decreasing_by exact mode.length_rest_skip_read s c _h

/-- Where the search for the end of the list that opens just before `c` halts. -/
def halt (mode : SignatureMode) (c : Cursor) : Cursor := mode.haltFrom 0 .plain c

section
variable (mode : SignatureMode) {depth : Nat} (s : LexState) {c : Cursor}

theorem haltFrom_of_nil (h : c.rest = []) : mode.haltFrom depth s c = c := by
  rw [haltFrom]
  split
  · rfl
  · simp_all

variable {b : UInt8} {r : List UInt8} (h : c.rest = b :: r)
include h

theorem haltFrom_of_ends (he : Brackets.parens.ends depth (mode.read s c b r).code) : mode.haltFrom depth s c = c := by
  rw [haltFrom]
  split
  · rfl
  next hc =>
    obtain ⟨rfl, rfl⟩ := List.cons.inj (h.symm.trans hc)
    exact if_pos he

theorem haltFrom_of_not_ends (he : ¬ Brackets.parens.ends depth (mode.read s c b r).code) :
    mode.haltFrom depth s c = mode.haltFrom (Brackets.parens.depthAfter depth (mode.read s c b r).code)
      (mode.read s c b r).next (c.skip (mode.read s c b r).advance) := by
  rw [haltFrom]
  split
  next hc => simp [h] at hc
  next hc =>
    obtain ⟨rfl, rfl⟩ := List.cons.inj (h.symm.trans hc)
    exact if_neg he

end

theorem here?_of_code_read (mode : SignatureMode) (s : LexState) {c : Cursor} {a b : UInt8} {r : List UInt8}
    (h : c.rest = b :: r) (ha : (mode.read s c b r).code = some a) : c.here? = some a := by
  rw [Cursor.here?, h, List.head?_cons, mode.eq_of_code_read s c b r ha]

theorem exists_skip_haltFrom (mode : SignatureMode) (depth : Nat) (s : LexState) (c : Cursor) :
    ∃ n, mode.haltFrom depth s c = c.skip n := by
  fun_induction haltFrom mode depth s c with
  | case1 => exact ⟨0, rfl⟩
  | case2 => exact ⟨0, rfl⟩
  | case3 depth s c b r hc step he ih =>
    obtain ⟨n, hn⟩ := ih
    exact ⟨step.advance + n, by rw [hn, Cursor.skip_skip]⟩

theorem here?_haltFrom (mode : SignatureMode) (depth : Nat) (s : LexState) (c : Cursor) :
    ∀ b ∈ (mode.haltFrom depth s c).here?, b = Byte.rightParen ∨ b = Byte.semicolon := by
  fun_induction haltFrom mode depth s c with
  | case1 depth s c hc => simp [Cursor.here?, hc]
  | case2 depth s c b r hc step he =>
    obtain ⟨hcode | hcode, -⟩ := Brackets.ends_parens.1 he
    · simp [mode.here?_of_code_read s hc hcode]
    · simp [mode.here?_of_code_read s hc hcode]
  | case3 depth s c b r hc step he ih => exact ih

/-- A list ends where the search halts at a parenthesis. -/
theorem closeFrom_eq_haltFrom (mode : SignatureMode) (depth : Nat) (s : LexState) (c : Cursor) :
    mode.closeFrom depth s c = if (mode.haltFrom depth s c).here? = some Byte.rightParen
      then some ((mode.haltFrom depth s c).skip 1) else none := by
  fun_induction haltFrom mode depth s c with
  | case1 depth s c hc =>
    rw [closeFrom_eq, mode.counted_of_nil s hc, Cursor.here?, hc]
    rfl
  | case2 depth s c b r hc step he =>
    obtain ⟨hcode, rfl⟩ := Brackets.ends_parens.1 he
    rw [closeFrom_eq, mode.counted_of_cons s hc]
    rcases hcode with hcode | hcode
    · rw [show (mode.read s c b r).code = _ from hcode, mode.here?_of_code_read s hc hcode]
      show some (c.skip (c.offset + 1 - c.offset)) = some (c.skip 1)
      rw [Nat.add_sub_cancel_left]
    · rw [show (mode.read s c b r).code = _ from hcode, mode.here?_of_code_read s hc hcode]
      rfl
  | case3 depth s c b r hc step he ih =>
    rw [← ih, closeFrom_eq, closeFrom_eq, mode.closing_of_cons s hc (by simpa using he)]

theorem close?_eq_halt (mode : SignatureMode) (c : Cursor) : mode.close? c =
    if (mode.halt c).here? = some Byte.rightParen then some ((mode.halt c).skip 1) else none :=
  mode.closeFrom_eq_haltFrom 0 .plain c

/-! ## Both modes -/

/-- The search that counts every byte does not halt elsewhere if the lexer joins in, provided that no
literal or comment opens up to there. The byte it halts at counts among these: it is what the lexer sees
behind a slash before it. -/
theorem haltFrom_literalAware (depth : Nat) (s : LexState) (c : Cursor) :
    Unenclosed (c.rest.take ((baseline.haltFrom depth s c).offset - c.offset + 1)) →
      literalAware.haltFrom depth .plain c = baseline.haltFrom depth s c := by
  fun_induction haltFrom .baseline depth s c with
  | case1 depth s c hc =>
    intro _
    exact haltFrom_of_nil _ _ hc
  | case2 depth s c b r hc step he =>
    rw [hc, List.take_succ_cons]
    intro h
    have hb : b ≠ Byte.slash := by
      rintro rfl
      obtain ⟨hcode | hcode, -⟩ := Brackets.ends_parens.1 he
      · cases hcode
      · cases hcode
    have hstep : literalAware.read .plain c b r = ⟨1, some b, .plain⟩ := h.stepAt_plain (absurd · hb) c
    exact haltFrom_of_ends _ _ hc (by rw [hstep]; exact he)
  | case3 depth s c b r hc step he ih =>
    obtain ⟨n, hn⟩ := exists_skip_haltFrom .baseline (Brackets.parens.depthAfter depth step.code) s (c.skip 1)
    have hoff : (c.skip 1 |>.skip n).offset - c.offset = n + 1 := by
      rw [Cursor.offset_skip, Cursor.offset_skip]
      omega
    have hoff' : (c.skip 1 |>.skip n).offset - (c.skip 1).offset = n := by
      rw [Cursor.offset_skip, Nat.add_sub_cancel_left]
    show Unenclosed (c.rest.take ((baseline.haltFrom _ s (c.skip 1)).offset - c.offset + 1)) → _
    rw [hn, hoff, hc, List.take_succ_cons]
    intro h
    have hstep : literalAware.read .plain c b r = ⟨1, some b, .plain⟩ :=
      h.stepAt_plain (fun _ => by rw [List.head?_take, if_neg (Nat.succ_ne_zero n)]) c
    rw [haltFrom_of_not_ends _ _ hc (by rw [hstep]; exact he), hstep]
    apply ih
    show Unenclosed ((c.skip 1).rest.take ((baseline.haltFrom _ s (c.skip 1)).offset - (c.skip 1).offset + 1))
    rw [hn, hoff', Cursor.rest_skip, hc]
    exact h.drop 1

/-- The byte at which the search halts opens nothing itself. -/
theorem close?_literalAware {c : Cursor}
    (h : Unenclosed (c.rest.take ((baseline.halt c).offset - c.offset))) :
    literalAware.close? c = baseline.close? c := by
  obtain ⟨n, hn⟩ := exists_skip_haltFrom baseline 0 .plain c
  have hat : (baseline.halt c).here? = c.rest[n]? := by
    rw [halt, hn, Cursor.here?, Cursor.rest_skip, List.head?_drop]
  have hoff : (baseline.halt c).offset - c.offset = n := by
    rw [halt, hn, Cursor.offset_skip, Nat.add_sub_cancel_left]
  have hall : Unenclosed (c.rest.take ((baseline.halt c).offset - c.offset + 1)) := by
    rw [hoff] at h ⊢
    rw [List.take_add_one, ← hat]
    cases hb : (baseline.halt c).here? with
    | none => rwa [Option.toList_none, List.append_nil]
    | some b =>
      apply h.concat
      rcases here?_haltFrom baseline 0 .plain c b hb with rfl | rfl
      · rintro ⟨⟩ <;> decide
      · rintro ⟨⟩ <;> decide
  have hhalt : literalAware.halt c = baseline.halt c := haltFrom_literalAware 0 .plain c hall
  rw [close?_eq_halt, close?_eq_halt, hhalt]

theorem close?_literalAware_of_unenclosed {c : Cursor} (h : Unenclosed c.rest) :
    literalAware.close? c = baseline.close? c :=
  close?_literalAware (h.of_isInfix (List.take_prefix _ _).isInfix)

end SignatureMode

/-! ## Whole texts -/

namespace Signature

theorem unenclosed_behind_identifier {c : Cursor} (h : Unenclosed c.rest) :
    Unenclosed ((identifierFrom c).skipWhile Byte.isIdentifier).rest := by
  rw [identifierFrom, Cursor.rest_skipWhile, Cursor.rest_skipWhile]
  exact h.of_isInfix ((List.dropWhile_suffix _).trans (List.dropWhile_suffix _)).isInfix

/-- The search goes on at the same places in both modes, and no literal or comment opens behind them. -/
theorem allFrom_literalAware (c : Cursor) :
    Unenclosed c.rest → allFrom .literalAware c = allFrom .baseline c := by
  fun_induction openings .baseline c with
  | case1 c hrest =>
    intro _
    rw [allFrom_of_none _ (next_of_nil _ hrest), allFrom_of_none _ (next_of_nil _ hrest)]
  | case2 c b r hrest paren hp ih =>
    intro h
    have hne : (identifierFrom c).rest ≠ [] := by simp [hrest]
    have hparen : Unenclosed (paren.skip 1).rest := by
      rw [Cursor.rest_skip]
      exact (unenclosed_behind_identifier h).drop 1
    have hclose := SignatureMode.close?_literalAware_of_unenclosed hparen
    have hnext := next_of_paren .baseline hne hp
    have hnext' := next_of_paren .literalAware hne hp
    rw [show SignatureMode.literalAware.close? _ = _ from hclose] at hnext'
    cases hc : SignatureMode.baseline.close? (paren.skip 1) with
    | some behind =>
      rw [hc] at hnext hnext' ih
      obtain ⟨n, hn, -⟩ := SignatureMode.exists_skip_of_close? hc
      have hbehind : Unenclosed behind.rest := by
        rw [hn, Cursor.rest_skip]
        exact hparen.drop _
      rw [allFrom_of_some _ hnext, allFrom_of_some _ hnext']
      exact congrArg _ (ih hbehind)
    | none =>
      rw [hc] at hnext hnext' ih
      rw [allFrom_congr _ hnext, allFrom_congr _ hnext']
      exact ih hparen
  | case3 c b r hrest paren hp ih =>
    intro h
    have hne : (identifierFrom c).rest ≠ [] := by simp [hrest]
    rw [allFrom_congr _ (next_of_not_paren _ hne hp), allFrom_congr _ (next_of_not_paren _ hne hp)]
    exact ih (unenclosed_behind_identifier h)

end Signature

/-! ## Main theorem -/

/-- The modes agree on a parameter list if no literal or comment opens in it before the search that counts
every byte halts. So they agree on all signatures and reports of a text without literals and comments. -/
theorem modes_agree_on_unenclosed :
    (∀ (mode : SignatureMode) (c : Cursor), mode.close? c =
      if (mode.halt c).here? = some Byte.rightParen then some ((mode.halt c).skip 1) else none) ∧
    (∀ (bs : List UInt8) (o : Nat),
      Unenclosed ((bs.take (SignatureMode.baseline.halt (.atOffset bs (o + 1))).offset).drop (o + 1)) →
        SignatureMode.literalAware.close? (.atOffset bs (o + 1)) =
          SignatureMode.baseline.close? (.atOffset bs (o + 1))) ∧
    ∀ text : String, Unenclosed (bytes text) →
      signatures .literalAware text = signatures .baseline text ∧
        ∀ (placement : BracePlacement) (maxLines : UInt64),
          scan text ⟨maxLines, placement, .literalAware⟩ = scan text ⟨maxLines, placement, .baseline⟩ := by
  refine ⟨SignatureMode.close?_eq_halt, ?_, ?_⟩
  · intro bs o h
    apply SignatureMode.close?_literalAware
    rwa [Cursor.rest_atOffset, Cursor.offset_atOffset, ← List.drop_take]
  · intro text h
    have hsignatures : signatures .literalAware text = signatures .baseline text :=
      Signature.allFrom_literalAware (.start (bytes text)) h
    refine ⟨hsignatures, ?_⟩
    intro placement maxLines
    rw [scan_eq, scan_eq, bodyReports, bodyReports, bodies, bodies, hsignatures]

/-- A lone slash opens nothing, and neither does what stands behind the list. -/
theorem modes_agree_on_lone_slash :
    Unenclosed (((bytes "f(a/(b)) // ;").take
      (SignatureMode.baseline.halt (.atOffset (bytes "f(a/(b)) // ;") (1 + 1))).offset).drop (1 + 1)) ∧
    SignatureMode.literalAware.close? (.atOffset (bytes "f(a/(b)) // ;") (1 + 1)) =
      SignatureMode.baseline.close? (.atOffset (bytes "f(a/(b)) // ;") (1 + 1)) ∧
    Unenclosed (bytes "f(;g(a/b)\n\x7b\n\x7d") ∧
    signatures .literalAware "f(;g(a/b)\n\x7b\n\x7d" = signatures .baseline "f(;g(a/b)\n\x7b\n\x7d" ∧
    scan "f(;g(a/b)\n\x7b\n\x7d" ⟨25, .nextLine, .literalAware⟩ =
      scan "f(;g(a/b)\n\x7b\n\x7d" ⟨25, .nextLine, .baseline⟩ := by
  have hlist : Unenclosed (((bytes "f(a/(b)) // ;").take
      (SignatureMode.baseline.halt (.atOffset (bytes "f(a/(b)) // ;") (1 + 1))).offset).drop (1 + 1)) := by
    decide +kernel
  have htext : Unenclosed (bytes "f(;g(a/b)\n\x7b\n\x7d") := by decide +kernel
  obtain ⟨-, hclose, hwhole⟩ := modes_agree_on_unenclosed
  obtain ⟨hsignatures, hscan⟩ := hwhole _ htext
  exact ⟨hlist, hclose _ 1 hlist, htext, hsignatures, hscan .nextLine 25⟩

end BodyLength
