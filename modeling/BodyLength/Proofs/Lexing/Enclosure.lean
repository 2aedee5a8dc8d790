import BodyLength.Lexing.Trace
import Mathlib.Data.List.Infix
/-!
# What hides bytes from a scan

String and character literals, line comments and block comments are described here as
stretches of a text: how they open, what may stand inside and how they close. None of it
mentions the flags of the lexer.

`trace_closed` and `trace_unclosed` say which steps the lexer takes through such a stretch:
it never yields a byte inside, and behind it is back in plain code.
-/

namespace BodyLength

/-- What keeps bytes of a text from being code. -/
inductive Enclosure where
  | string
  | char
  | lineComment
  | blockComment
deriving DecidableEq, Repr

/-- What may stand between two quotes: a backslash takes the next byte with it, whatever
that is. -/
inductive LiteralBody (quote : UInt8) : List UInt8 → Prop
  | nil : LiteralBody quote []
  | plain {b : UInt8} {r : List UInt8} :
      b ≠ Byte.backslash → b ≠ quote → LiteralBody quote r → LiteralBody quote (b :: r)
  | escape {b : UInt8} {r : List UInt8} :
      LiteralBody quote r → LiteralBody quote (Byte.backslash :: b :: r)

namespace Enclosure

def quote? : Enclosure → Option UInt8
  | string => some Byte.doubleQuote
  | char => some Byte.singleQuote
  | lineComment | blockComment => none

def opening : Enclosure → List UInt8
  | string => [Byte.doubleQuote]
  | char => [Byte.singleQuote]
  | lineComment => [Byte.slash, Byte.slash]
  | blockComment => [Byte.slash, Byte.star]

/-- The newline that ends a line comment is no part of it, and the star in front of the
slash that ends a block comment belongs to the body. -/
def closing : Enclosure → List UInt8
  | string => [Byte.doubleQuote]
  | char => [Byte.singleQuote]
  | lineComment => []
  | blockComment => [Byte.slash]

/-- The state of the lexer inside. -/
def state : Enclosure → LexState
  | string => { inString := true }
  | char => { inChar := true }
  | lineComment => { inLineComment := true }
  | blockComment => { inBlockComment := true }

/-- No byte of `body` ends what has just been opened. The star of the opening counts as the
byte before the body. -/
def Hides : Enclosure → List UInt8 → Prop
  | string, body => LiteralBody Byte.doubleQuote body
  | char, body => LiteralBody Byte.singleQuote body
  | lineComment, body => Byte.newline ∉ body
  | blockComment, body => ¬ [Byte.star, Byte.slash] <:+: Byte.star :: body

/-- With `body` inside and `rest` behind, the enclosure ends just before `rest`. -/
def Closed (e : Enclosure) (body rest : List UInt8) : Prop :=
  e.Hides body ∧ match e with
    | string | char => True
    | lineComment => rest.head? = some Byte.newline
    | blockComment => (Byte.star :: body).getLast? = some Byte.star

/-- With `body` inside up to the end of the text, the enclosure does not end. A backslash
that is the last byte of the text has nothing to take with it. -/
def Unclosed (e : Enclosure) (body : List UInt8) : Prop :=
  e.Hides body ∨ e.quote?.isSome ∧ ∃ r, body = r ++ [Byte.backslash] ∧ e.Hides r

/-- Whether `b` takes the byte behind it along. -/
def escapes (e : Enclosure) (b : UInt8) : Bool := e.quote?.isSome && b == Byte.backslash

/-- The steps through a body that starts at offset `o`. -/
def bodySteps (e : Enclosure) : Nat → List UInt8 → List TracedStep
  | _, [] => []
  | o, [b] => [⟨o, if e.escapes b then 2 else 1, none, e.state⟩]
  | o, b :: c :: r =>
    if e.escapes b then ⟨o, 2, none, e.state⟩ :: bodySteps e (o + 2) r
    else ⟨o, 1, none, e.state⟩ :: bodySteps e (o + 1) (c :: r)

/-- The steps through what closes an enclosure at offset `o`. -/
def closingSteps (e : Enclosure) (o : Nat) : List TracedStep :=
  e.closing.map fun _ => ⟨o, 1, none, .plain⟩

/-! ## Bodies -/

@[simp] theorem bodySteps_nil (e : Enclosure) (o : Nat) : e.bodySteps o [] = [] := rfl

theorem bodySteps_escape {e : Enclosure} {b : UInt8} (h : e.escapes b) (o : Nat) (c : UInt8) (r : List UInt8) :
    e.bodySteps o (b :: c :: r) = ⟨o, 2, none, e.state⟩ :: e.bodySteps (o + 2) r := by
  simp [bodySteps, h]

theorem bodySteps_cons {e : Enclosure} {b : UInt8} (h : e.escapes b = false) (o : Nat) (r : List UInt8) :
    e.bodySteps o (b :: r) = ⟨o, 1, none, e.state⟩ :: e.bodySteps (o + 1) r := by
  cases r <;> simp [bodySteps, h]

/-- Every step of a body stays inside and yields nothing. -/
theorem mem_bodySteps {e : Enclosure} {o : Nat} {body : List UInt8} {t : TracedStep}
    (h : t ∈ e.bodySteps o body) : t.step.code = none ∧ t.step.next = e.state := by
  fun_induction bodySteps e o body with
  | case1 => cases h
  | case2 o b =>
    rw [List.mem_singleton] at h
    subst h
    exact ⟨rfl, rfl⟩
  | case3 o b c r hb ih | case4 o b c r hb ih =>
    rcases List.mem_cons.1 h with rfl | h
    · exact ⟨rfl, rfl⟩
    · exact ih h

theorem mem_closingSteps {e : Enclosure} {o : Nat} {t : TracedStep} (h : t ∈ e.closingSteps o) :
    t.step.code = none ∧ t.step.next = .plain := by
  obtain ⟨_, _, rfl⟩ := List.mem_map.1 h
  exact ⟨rfl, rfl⟩

/-- Only an escape without a byte to take along carries the lexer past a body. -/
theorem offsetAfter_bodySteps (e : Enclosure) (o : Nat) (body : List UInt8) :
    LexState.offsetAfter o (e.bodySteps o body) = o + body.length ∨
      LexState.offsetAfter o (e.bodySteps o body) = o + body.length + 1 ∧
        body.getLast? = some Byte.backslash ∧ e.quote?.isSome := by
  fun_induction bodySteps e o body with
  | case1 o => exact .inl rfl
  | case2 o b =>
    by_cases h : e.escapes b
    · have h' := h
      simp only [escapes, Bool.and_eq_true, beq_iff_eq] at h'
      exact .inr ⟨by simp [LexState.offsetAfter, h], by simp [h'.2], h'.1⟩
    · exact .inl (by simp [LexState.offsetAfter, h])
  | case3 o b c r _ ih =>
    rw [LexState.offsetAfter_cons]
    rcases ih with ih | ⟨ih, hl, he⟩
    · exact .inl (by simp only [ih, List.length_cons]; omega)
    · have hr : r ≠ [] := by rintro rfl; cases hl
      refine .inr ⟨by simp only [ih, List.length_cons]; omega, ?_, he⟩
      simpa [List.getLast?_cons_of_ne_nil, hr] using hl
  | case4 o b c r _ ih =>
    rw [LexState.offsetAfter_cons]
    rcases ih with ih | ⟨ih, hl, he⟩
    · exact .inl (by simp only [ih, List.length_cons]; omega)
    · exact .inr ⟨by simp only [ih, List.length_cons]; omega, by simpa using hl, he⟩

/-! ## The lexer inside an enclosure -/

theorem step_quoted {e : Enclosure} {q : UInt8} (he : e.quote? = some q) (p n : Option UInt8) (b : UInt8) :
    e.state.step p b n = if b = Byte.backslash then ⟨2, none, e.state⟩
      else if b = q then ⟨1, none, .plain⟩ else ⟨1, none, e.state⟩ := by
  cases e <;> cases he <;>
    simp [state, LexState.step, LexState.inComment, LexState.inLiteral, LexState.stepLiteral, LexState.plain]

theorem step_lineComment (p n : Option UInt8) (b : UInt8) :
    lineComment.state.step p b n =
      if b = Byte.newline then ⟨1, some b, .plain⟩ else ⟨1, none, lineComment.state⟩ := by
  simp [state, LexState.step, LexState.inComment, LexState.stepComment, LexState.plain]

theorem step_blockComment (p n : Option UInt8) (b : UInt8) :
    blockComment.state.step p b n =
      if b = Byte.slash ∧ p = some Byte.star then ⟨1, none, .plain⟩ else ⟨1, none, blockComment.state⟩ := by
  simp [state, LexState.step, LexState.inComment, LexState.stepComment, LexState.plain]

/-- Only a block comment looks at the byte before. -/
theorem step_before {s : LexState} (h : s.inBlockComment = false) (p p' n : Option UInt8) (b : UInt8) :
    s.step p b n = s.step p' b n := by
  simp [LexState.step, LexState.stepComment, h]

/-- Only at a slash the lexer looks at the byte behind. -/
theorem step_after (s : LexState) {b : UInt8} (h : b ≠ Byte.slash) (p n n' : Option UInt8) :
    s.step p b n = s.step p b n' := by
  simp [LexState.step, LexState.stepCode, h]

theorem trace_before {s : LexState} (h : s.inBlockComment = false) (o : Nat) (p p' : Option UInt8)
    (l : List UInt8) : s.trace ⟨o, p, l⟩ = s.trace ⟨o, p', l⟩ := by
  cases l with
  | nil => simp
  | cons b r =>
    rw [LexState.trace_cons, LexState.trace_cons, step_before h p p']
    rcases s.advance_step p' b r.head? with ha | ha <;> rw [ha] <;> rfl

theorem trace_opening (e : Enclosure) (o : Nat) (p : Option UInt8) (l : List UInt8) :
    LexState.plain.trace ⟨o, p, e.opening ++ l⟩ = ⟨o, e.opening.length, none, e.state⟩ ::
      e.state.trace ⟨o + e.opening.length, e.opening.getLast?, l⟩ := by
  cases e <;> exact LexState.trace_cons ..

theorem trace_literal {e : Enclosure} {q : UInt8} (he : e.quote? = some q) {body : List UInt8}
    (h : LiteralBody q body) (o : Nat) (p p' : Option UInt8) (l : List UInt8) :
    e.state.trace ⟨o, p, body ++ l⟩ = e.bodySteps o body ++ e.state.trace ⟨o + body.length, p', l⟩ := by
  have hs : e.state.inBlockComment = false := by
    cases e with
    | blockComment => cases he
    | _ => rfl
  -- an escape is one step, so the induction is on how the body is built, not on its bytes
  induction h generalizing o p with
  | nil => exact trace_before hs ..
  | @plain b r hb hq _ ih =>
    rw [List.cons_append, LexState.trace_cons, step_quoted he, if_neg hb, if_neg hq,
      bodySteps_cons (by simp [escapes, hb]), Cursor.skip_one_cons, ih, List.length_cons, Nat.add_right_comm, Nat.add_assoc]
    rfl
  | @escape b r _ ih =>
    rw [List.cons_append, List.cons_append, LexState.trace_cons, step_quoted he, if_pos rfl,
      bodySteps_escape (by simp [escapes, he]), Cursor.skip_two_cons, ih]
    simp [Nat.add_assoc, Nat.add_comm 2]

theorem trace_line {body : List UInt8} (h : Byte.newline ∉ body) (o : Nat) (p p' : Option UInt8)
    (l : List UInt8) : lineComment.state.trace ⟨o, p, body ++ l⟩ =
      lineComment.bodySteps o body ++ lineComment.state.trace ⟨o + body.length, p', l⟩ := by
  induction body generalizing o p with
  | nil => exact trace_before rfl ..
  | cons b body ih =>
    simp only [List.mem_cons, not_or] at h
    rw [List.cons_append, LexState.trace_cons, step_lineComment, if_neg (Ne.symm h.1), bodySteps_cons rfl,
      Cursor.skip_one_cons, ih h.2]
    simp [Nat.add_assoc, Nat.add_comm 1]

/-- Whether the comment ends at a byte depends on the byte `p` before it, so the induction
carries that byte along. -/
theorem trace_block {p : UInt8} {body : List UInt8} (h : ¬ [Byte.star, Byte.slash] <:+: p :: body) (o : Nat)
    (l : List UInt8) : blockComment.state.trace ⟨o, some p, body ++ l⟩ = blockComment.bodySteps o body ++
      blockComment.state.trace ⟨o + body.length, (p :: body).getLast?, l⟩ := by
  induction body generalizing o p with
  | nil => rfl
  | cons b body ih =>
    rw [List.infix_cons_iff, not_or] at h
    have hb : ¬ (b = Byte.slash ∧ some p = some Byte.star) := by
      rintro ⟨rfl, hp⟩
      exact h.1 ⟨body, by simp [Option.some.inj hp]⟩
    rw [List.cons_append, LexState.trace_cons, step_blockComment, if_neg hb, bodySteps_cons rfl,
      Cursor.skip_one_cons, ih h.2]
    simp [Nat.add_assoc, Nat.add_comm 1]

theorem trace_hides {e : Enclosure} {body : List UInt8} (h : e.Hides body) (o : Nat) (l : List UInt8) :
    e.state.trace ⟨o, e.opening.getLast?, body ++ l⟩ =
      e.bodySteps o body ++ e.state.trace ⟨o + body.length, (e.opening ++ body).getLast?, l⟩ := by
  cases e with
  | string => exact trace_literal rfl h ..
  | char => exact trace_literal rfl h ..
  | lineComment => exact trace_line h ..
  | blockComment => exact trace_block h ..

theorem trace_quote {e : Enclosure} {q : UInt8} (he : e.quote? = some q) (o : Nat) (p p' : Option UInt8)
    (r : List UInt8) :
    e.state.trace ⟨o, p, q :: r⟩ = ⟨o, 1, none, .plain⟩ :: LexState.plain.trace ⟨o + 1, p', r⟩ := by
  have hq : q ≠ Byte.backslash := by cases e <;> cases he <;> decide
  rw [LexState.trace_cons, step_quoted he, if_neg hq, if_pos rfl]
  exact congrArg _ (trace_before rfl ..)

theorem trace_closed {e : Enclosure} {body rest : List UInt8} (h : e.Closed body rest) (o : Nat)
    (p : Option UInt8) : e.state.trace ⟨o, e.opening.getLast?, body ++ (e.closing ++ rest)⟩ =
      e.bodySteps o body ++ (e.closingSteps (o + body.length) ++
        LexState.plain.trace ⟨o + body.length + e.closing.length, p, rest⟩) := by
  obtain ⟨hb, hr⟩ := h
  rw [trace_hides hb]
  congr 1
  cases e with
  | string => exact trace_quote rfl ..
  | char => exact trace_quote rfl ..
  | lineComment =>
    obtain ⟨r, rfl⟩ := List.head?_eq_some_iff.1 hr
    -- the newline makes for the same step as in plain code
    simp only [closing, closingSteps, List.nil_append, List.map_nil, List.length_nil, Nat.add_zero,
      LexState.trace_cons]
    rw [step_lineComment, if_pos rfl]
    rfl
  | blockComment =>
    have hp : (blockComment.opening ++ body).getLast? = some Byte.star := hr
    rw [hp, closing, List.singleton_append, LexState.trace_cons, step_blockComment, if_pos ⟨rfl, rfl⟩]
    exact congrArg _ (trace_before rfl ..)

theorem bodySteps_append {e : Enclosure} {q : UInt8} (he : e.quote? = some q) {body : List UInt8}
    (h : LiteralBody q body) (o : Nat) (l : List UInt8) :
    e.bodySteps o (body ++ l) = e.bodySteps o body ++ e.bodySteps (o + body.length) l := by
  induction h generalizing o with
  | nil => rfl
  | plain hb _ _ ih =>
    rw [List.cons_append, bodySteps_cons (by simp [escapes, hb]), bodySteps_cons (by simp [escapes, hb]), ih]
    simp [Nat.add_assoc, Nat.add_comm 1]
  | escape _ ih =>
    rw [List.cons_append, List.cons_append, bodySteps_escape (by simp [escapes, he]),
      bodySteps_escape (by simp [escapes, he]), ih]
    simp [Nat.add_assoc, Nat.add_comm 2]

theorem trace_unclosed {e : Enclosure} {body : List UInt8} (h : e.Unclosed body) (o : Nat) :
    e.state.trace ⟨o, e.opening.getLast?, body⟩ = e.bodySteps o body := by
  rcases h with h | ⟨he, r, rfl, h⟩
  · simpa using trace_hides h o []
  · obtain ⟨q, he⟩ := Option.isSome_iff_exists.1 he
    have hr : LiteralBody q r := by cases e <;> cases he <;> exact h
    rw [trace_literal he hr o _ none, bodySteps_append he hr, LexState.trace_cons, step_quoted he, if_pos rfl]
    simp [bodySteps, escapes, he, Cursor.skip]

/-! ## Where an enclosure ends -/

theorem literal_split (q : UInt8) : ∀ l : List UInt8,
    (∃ body rest, l = body ++ q :: rest ∧ LiteralBody q body) ∨
      LiteralBody q l ∨ ∃ r, l = r ++ [Byte.backslash] ∧ LiteralBody q r
  | [] => .inr (.inl .nil)
  | b :: r => by
    by_cases hq : b = q
    · exact .inl ⟨[], r, by simp [hq], .nil⟩
    by_cases hb : b = Byte.backslash
    · subst hb
      match r with
      | [] => exact .inr (.inr ⟨[], rfl, .nil⟩)
      | c :: r =>
        rcases literal_split q r with ⟨body, rest, rfl, h⟩ | h | ⟨r, rfl, h⟩
        · exact .inl ⟨_ :: _ :: body, rest, rfl, h.escape⟩
        · exact .inr (.inl h.escape)
        · exact .inr (.inr ⟨_ :: _ :: r, rfl, h.escape⟩)
    · rcases literal_split q r with ⟨body, rest, rfl, h⟩ | h | ⟨r, rfl, h⟩
      · exact .inl ⟨b :: body, rest, rfl, h.plain hb hq⟩
      · exact .inr (.inl (h.plain hb hq))
      · exact .inr (.inr ⟨b :: r, rfl, h.plain hb hq⟩)

theorem line_split (l : List UInt8) :
    (∃ body rest, l = body ++ rest ∧ Byte.newline ∉ body ∧ rest.head? = some Byte.newline) ∨ Byte.newline ∉ l := by
  by_cases h : Byte.newline ∈ l
  · obtain ⟨body, rest, rfl, hb⟩ := List.eq_append_cons_of_mem h
    exact .inl ⟨body, _, rfl, hb, rfl⟩
  · exact .inr h

theorem block_split (p : UInt8) (l : List UInt8) :
    (∃ body rest, l = body ++ Byte.slash :: rest ∧ (p :: body).getLast? = some Byte.star ∧
      ¬ [Byte.star, Byte.slash] <:+: p :: body) ∨ ¬ [Byte.star, Byte.slash] <:+: p :: l := by
  induction l generalizing p with
  | nil => exact .inr fun h => by simpa using h.length_le
  | cons b l ih =>
    by_cases hb : b = Byte.slash ∧ p = Byte.star
    · obtain ⟨rfl, rfl⟩ := hb
      exact .inl ⟨[], l, rfl, rfl, fun h => by simpa using h.length_le⟩
    have step {l : List UInt8} (h : ¬ [Byte.star, Byte.slash] <:+: b :: l) :
        ¬ [Byte.star, Byte.slash] <:+: p :: b :: l := by
      rw [List.infix_cons_iff, not_or]
      refine ⟨?_, h⟩
      simpa [List.cons_prefix_cons, eq_comm] using fun hp hs => hb ⟨hs, hp⟩
    rcases ih b with ⟨body, rest, rfl, hl, h⟩ | h
    · exact .inl ⟨b :: body, rest, rfl, by simpa using hl, step h⟩
    · exact .inr (step h)

/-- Whatever follows an opening, the enclosure ends somewhere or runs to the end of the text. -/
theorem closed_or_unclosed (e : Enclosure) (l : List UInt8) :
    (∃ body rest, l = body ++ (e.closing ++ rest) ∧ e.Closed body rest) ∨ e.Unclosed l := by
  cases e with
  | string =>
    rcases literal_split Byte.doubleQuote l with ⟨body, rest, rfl, h⟩ | h | ⟨r, rfl, h⟩
    · exact .inl ⟨body, rest, rfl, h, trivial⟩
    · exact .inr (.inl h)
    · exact .inr (.inr ⟨rfl, r, rfl, h⟩)
  | char =>
    rcases literal_split Byte.singleQuote l with ⟨body, rest, rfl, h⟩ | h | ⟨r, rfl, h⟩
    · exact .inl ⟨body, rest, rfl, h, trivial⟩
    · exact .inr (.inl h)
    · exact .inr (.inr ⟨rfl, r, rfl, h⟩)
  | lineComment =>
    rcases line_split l with ⟨body, rest, rfl, hb, hr⟩ | h
    · exact .inl ⟨body, rest, rfl, hb, hr⟩
    · exact .inr (.inl h)
  | blockComment =>
    rcases block_split Byte.star l with ⟨body, rest, rfl, hl, h⟩ | h
    · exact .inl ⟨body, rest, rfl, h, hl⟩
    · exact .inr (.inl h)

/-- The first step of a trace that leaves the state of the enclosure. -/
def exit? (e : Enclosure) (t : List TracedStep) : Option Nat :=
  (t.find? fun x => x.step.next ≠ e.state).map (·.offset)

theorem exit_bodySteps_append (e : Enclosure) (o : Nat) (body : List UInt8) (t : List TracedStep) :
    e.exit? (e.bodySteps o body ++ t) = e.exit? t := by
  have : (e.bodySteps o body).find? (fun x => x.step.next ≠ e.state) = none := by
    simpa [List.find?_eq_none] using fun x hx => (mem_bodySteps hx).2
  rw [exit?, List.find?_append, this]
  rfl

/-- The lexer leaves an enclosure exactly behind its body. -/
theorem exit_of_closed {e : Enclosure} {body rest : List UInt8} (h : e.Closed body rest) (o : Nat) :
    e.exit? (e.state.trace ⟨o, e.opening.getLast?, body ++ (e.closing ++ rest)⟩) = some (o + body.length) := by
  rw [trace_closed h o none, exit_bodySteps_append]
  cases e with
  | lineComment =>
    obtain ⟨r, rfl⟩ := List.head?_eq_some_iff.1 h.2
    rw [closingSteps, closing, List.map_nil, List.nil_append, LexState.trace_cons]
    rfl
  | _ => rfl

theorem exit_of_unclosed {e : Enclosure} {body : List UInt8} (h : e.Unclosed body) (o : Nat) :
    e.exit? (e.state.trace ⟨o, e.opening.getLast?, body⟩) = none := by
  rw [trace_unclosed h, ← List.append_nil (e.bodySteps o body), exit_bodySteps_append]
  rfl

/-- An enclosure ends in one place only. -/
theorem Closed.unique {e : Enclosure} {body body' rest rest' : List UInt8} (h : e.Closed body rest)
    (h' : e.Closed body' rest') (hl : body ++ (e.closing ++ rest) = body' ++ (e.closing ++ rest')) :
    body = body' ∧ rest = rest' := by
  -- the lexer leaves the same text in one place
  have hx := exit_of_closed h 0
  rw [hl, exit_of_closed h' 0, Option.some.injEq, Nat.zero_add, Nat.zero_add] at hx
  obtain ⟨hb, hr⟩ := List.append_inj hl hx.symm
  exact ⟨hb, List.append_cancel_left hr⟩

theorem Closed.not_unclosed {e : Enclosure} {body rest : List UInt8} (h : e.Closed body rest) :
    ¬ e.Unclosed (body ++ (e.closing ++ rest)) := by
  intro hu
  have hx := exit_of_closed h 0
  rw [exit_of_unclosed hu] at hx
  cases hx

theorem opening_inj {e e' : Enclosure} {l l' : List UInt8} (h : e.opening ++ l = e'.opening ++ l') :
    e = e' ∧ l = l' := by
  cases e <;> cases e' <;> simp [opening, Byte.doubleQuote, Byte.singleQuote, Byte.slash, Byte.star] at h ⊢ <;> exact h

end Enclosure

end BodyLength
