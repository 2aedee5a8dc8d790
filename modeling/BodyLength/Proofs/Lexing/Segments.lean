import BodyLength.Proofs.Lexing.Enclosure
/-!
# The segments of a text

`Segmented` is a grammar of source text: enclosures, and bytes of code between them. Every
text has exactly one reading (`exists_segmented`, `Segmented.unique`), and the lexer takes
exactly the steps of that reading (`trace_of_segmented`), wherever in a larger text it starts.
-/

namespace BodyLength

inductive Segment where
  /-- A byte of code. -/
  | code (b : UInt8)
  /-- An enclosure with its body. -/
  | closed (e : Enclosure) (body : List UInt8)
  /-- An enclosure that runs to the end of the text. -/
  | unclosed (e : Enclosure) (body : List UInt8)
deriving DecidableEq, Repr

namespace Segment

def text : Segment → List UInt8
  | code b => [b]
  | closed e body => e.opening ++ (body ++ e.closing)
  | unclosed e body => e.opening ++ body

/-- The steps through a segment that starts at offset `o`. -/
def steps (o : Nat) : Segment → List TracedStep
  | code b => [⟨o, 1, some b, .plain⟩]
  | closed e body => ⟨o, e.opening.length, none, e.state⟩ :: (e.bodySteps (o + e.opening.length) body ++
      e.closingSteps (o + e.opening.length + body.length))
  | unclosed e body => ⟨o, e.opening.length, none, e.state⟩ :: e.bodySteps (o + e.opening.length) body

def stepsFrom (o : Nat) : List Segment → List TracedStep
  | [] => []
  | s :: ss => s.steps o ++ stepsFrom (o + s.text.length) ss

/-- The byte of a segment at offset `o`, if that is code. -/
def codeAt (o : Nat) : Segment → List (Nat × UInt8)
  | code b => [(o, b)]
  | closed _ _ | unclosed _ _ => []

/-- The bytes of code among segments that start at offset `o`, with their offsets. -/
def codeFrom (o : Nat) : List Segment → List (Nat × UInt8)
  | [] => []
  | s :: ss => s.codeAt o ++ codeFrom (o + s.text.length) ss

end Segment

/-- How a text divides into segments. -/
inductive Segmented : List UInt8 → List Segment → Prop
  | nil : Segmented [] []
  | code {b : UInt8} {rest : List UInt8} {ss : List Segment} :
      (∀ e : Enclosure, ¬ e.opening <+: b :: rest) → Segmented rest ss →
      Segmented (b :: rest) (.code b :: ss)
  | closed {e : Enclosure} {body rest : List UInt8} {ss : List Segment} :
      e.Closed body rest → Segmented rest ss →
      Segmented (e.opening ++ (body ++ (e.closing ++ rest))) (.closed e body :: ss)
  | unclosed {e : Enclosure} {body : List UInt8} :
      e.Unclosed body → Segmented (e.opening ++ body) [.unclosed e body]

/-- At most one of the four flags is set. -/
def LexState.Exclusive (s : LexState) : Prop :=
  s.inString.toNat + s.inChar.toNat + s.inLineComment.toNat + s.inBlockComment.toNat ≤ 1

instance (s : LexState) : Decidable s.Exclusive := inferInstanceAs (Decidable (_ ≤ 1))

/-! ## One reading -/

theorem exists_segmented (l : List UInt8) : ∃ ss, Segmented l ss := by
  -- what follows an enclosure may be far behind the next byte
  induction hn : l.length using Nat.strong_induction_on generalizing l with
  | _ n ih =>
    subst hn
    by_cases h : ∃ e : Enclosure, e.opening <+: l
    · obtain ⟨e, r, rfl⟩ := h
      rcases e.closed_or_unclosed r with ⟨body, rest, rfl, hc⟩ | hu
      · have he : 0 < e.opening.length := by cases e <;> decide
        obtain ⟨ss, hs⟩ := ih rest.length (by simp; omega) rest rfl
        exact ⟨_, .closed hc hs⟩
      · exact ⟨_, .unclosed hu⟩
    · cases l with
      | nil => exact ⟨[], .nil⟩
      | cons b rest =>
        obtain ⟨ss, hs⟩ := ih rest.length (by simp) rest rfl
        exact ⟨_, .code (not_exists.1 h) hs⟩

theorem Segmented.of_code {b : UInt8} {rest : List UInt8} {ss : List Segment}
    (hb : ∀ e : Enclosure, ¬ e.opening <+: b :: rest) (h : Segmented (b :: rest) ss) :
    ∃ ss', ss = .code b :: ss' ∧ Segmented rest ss' := by
  generalize hl : b :: rest = l at h hb
  cases h with
  | nil => cases hl
  | code _ h =>
    cases hl
    exact ⟨_, rfl, h⟩
  | closed | unclosed => exact absurd (List.prefix_append ..) (hb _)

theorem Segmented.of_opening {e : Enclosure} {l : List UInt8} {ss : List Segment}
    (h : Segmented (e.opening ++ l) ss) :
    (∃ body rest ss', l = body ++ (e.closing ++ rest) ∧ e.Closed body rest ∧ Segmented rest ss' ∧
      ss = .closed e body :: ss') ∨ e.Unclosed l ∧ ss = [.unclosed e l] := by
  generalize hl : e.opening ++ l = t at h
  cases h with
  | nil => cases e <;> cases hl
  | code hb _ => exact absurd ⟨l, hl⟩ (hb e)
  | closed hc h =>
    obtain ⟨rfl, rfl⟩ := Enclosure.opening_inj hl
    exact .inl ⟨_, _, _, rfl, hc, h, rfl⟩
  | unclosed hu =>
    obtain ⟨rfl, rfl⟩ := Enclosure.opening_inj hl
    exact .inr ⟨hu, rfl⟩

theorem Segmented.unique {l : List UInt8} {ss ss' : List Segment} (h : Segmented l ss)
    (h' : Segmented l ss') : ss' = ss := by
  induction h generalizing ss' with
  | nil =>
    generalize hl : ([] : List UInt8) = t at h'
    cases h' with
    | nil => rfl
    | code => cases hl
    | @closed e | @unclosed e => cases e <;> cases hl
  | code hb _ ih =>
    obtain ⟨ss', rfl, ht⟩ := h'.of_code hb
    rw [ih ht]
  | closed hc _ ih =>
    rcases h'.of_opening with ⟨body', rest', ss', hl, hc', ht, rfl⟩ | ⟨hu, -⟩
    · obtain ⟨rfl, rfl⟩ := hc.unique hc' hl
      rw [ih ht]
    · exact absurd hu hc.not_unclosed
  | unclosed hu =>
    rcases h'.of_opening with ⟨body', rest', ss', rfl, hc', -, -⟩ | ⟨-, rfl⟩
    · exact absurd hu hc'.not_unclosed
    · rfl

/-! ## The lexer reads segments -/

theorem LexState.step_code {b : UInt8} {r : List UInt8} (h : ∀ e : Enclosure, ¬ e.opening <+: b :: r)
    (p : Option UInt8) : LexState.plain.step p b r.head? = ⟨1, some b, .plain⟩ := by
  have hd : b ≠ Byte.doubleQuote := fun hb => h .string ⟨r, by rw [hb]; rfl⟩
  have hs : b ≠ Byte.singleQuote := fun hb => h .char ⟨r, by rw [hb]; rfl⟩
  have hc (a : UInt8) (ha : ¬ [Byte.slash, a] <+: b :: r) : ¬ (b = Byte.slash ∧ r.head? = some a) := by
    rintro ⟨rfl, hr⟩
    obtain ⟨r, rfl⟩ := List.head?_eq_some_iff.1 hr
    exact ha ⟨r, rfl⟩
  show LexState.plain.stepCode b r.head? = _
  rw [LexState.stepCode, if_neg hd, if_neg hs, if_neg (hc _ (h .lineComment)), if_neg (hc _ (h .blockComment))]

theorem trace_of_segmented {l : List UInt8} {ss : List Segment} (h : Segmented l ss) (o : Nat)
    (p : Option UInt8) : LexState.plain.trace ⟨o, p, l⟩ = Segment.stepsFrom o ss := by
  induction h generalizing o p with
  | nil => simp [Segment.stepsFrom]
  | code hb _ ih =>
    rw [LexState.trace_cons, LexState.step_code hb, Cursor.skip_one_cons, ih]
    rfl
  | closed hc _ ih =>
    rw [Enclosure.trace_opening, Enclosure.trace_closed hc _ none, ih]
    simp [Segment.stepsFrom, Segment.steps, Segment.text, Nat.add_assoc]
  | unclosed hu =>
    rw [Enclosure.trace_opening, Enclosure.trace_unclosed hu]
    simp [Segment.stepsFrom, Segment.steps]

/-- The steps of an enclosure yield nothing, and each ends inside it or in plain code. -/
theorem Segment.mem_steps {s : Segment} {o : Nat} {t : TracedStep} (h : t ∈ s.steps o) :
    (∃ b, s = .code b) ∨ t.step.code = none ∧ (t.step.next = .plain ∨ ∃ e : Enclosure, t.step.next = e.state) := by
  cases s with
  | code b => exact .inl ⟨b, rfl⟩
  | closed e body =>
    right
    rcases List.mem_cons.1 h with rfl | h
    · exact ⟨rfl, .inr ⟨e, rfl⟩⟩
    rcases List.mem_append.1 h with h | h
    · exact ⟨(Enclosure.mem_bodySteps h).1, .inr ⟨e, (Enclosure.mem_bodySteps h).2⟩⟩
    · exact ⟨(Enclosure.mem_closingSteps h).1, .inl (Enclosure.mem_closingSteps h).2⟩
  | unclosed e body =>
    right
    rcases List.mem_cons.1 h with rfl | h
    · exact ⟨rfl, .inr ⟨e, rfl⟩⟩
    · exact ⟨(Enclosure.mem_bodySteps h).1, .inr ⟨e, (Enclosure.mem_bodySteps h).2⟩⟩

theorem Segment.code_steps (s : Segment) (o : Nat) :
    (s.steps o).filterMap (fun t => t.step.code.map (t.offset, ·)) = s.codeAt o := by
  cases s with
  | code b => rfl
  | closed e body | unclosed e body =>
    refine List.filterMap_eq_nil_iff.2 fun t ht => ?_
    rcases mem_steps ht with ⟨b, h⟩ | ⟨h, -⟩
    · cases h
    · rw [h, Option.map_none]

theorem Segment.code_stepsFrom (o : Nat) (ss : List Segment) :
    (stepsFrom o ss).filterMap (fun t => t.step.code.map (t.offset, ·)) = codeFrom o ss := by
  induction ss generalizing o with
  | nil => rfl
  | cons s ss ih => rw [stepsFrom, List.filterMap_append, code_steps, ih, codeFrom]

theorem code_of_segmented {l : List UInt8} {ss : List Segment} (h : Segmented l ss) (o : Nat) (p : Option UInt8) :
    LexState.plain.code ⟨o, p, l⟩ = Segment.codeFrom o ss := by
  rw [LexState.code, trace_of_segmented h, Segment.code_stepsFrom]

/-- The code of a text moves with the text. -/
theorem Segment.codeFrom_add (o n : Nat) (ss : List Segment) :
    codeFrom (o + n) ss = (codeFrom o ss).map fun x => (x.1 + n, x.2) := by
  induction ss generalizing o with
  | nil => rfl
  | cons s ss ih =>
    rw [codeFrom, codeFrom, List.map_append, Nat.add_right_comm, ih]
    cases s <;> rfl

theorem Segment.exclusive_stepsFrom {o : Nat} {ss : List Segment} {t : TracedStep} (h : t ∈ stepsFrom o ss) :
    t.step.next.Exclusive := by
  induction ss generalizing o with
  | nil => cases h
  | cons s ss ih =>
    rcases List.mem_append.1 h with h | h
    · rcases mem_steps h with ⟨b, rfl⟩ | ⟨-, h | ⟨e, h⟩⟩
      · rw [List.mem_singleton.1 h]
        exact (by decide : LexState.plain.Exclusive)
      · rw [h]
        decide
      · rw [h]
        cases e <;> decide
    · exact ih h

theorem Segment.offsetAfter_steps {s : Segment} (hs : ∀ e body, s ≠ .unclosed e body) (o : Nat) :
    LexState.offsetAfter o (s.steps o) = o + s.text.length := by
  cases s with
  | code b => rfl
  | closed e body =>
    rw [steps, LexState.offsetAfter_cons, LexState.offsetAfter_append, text, List.length_append, List.length_append,
      ← Nat.add_assoc, ← Nat.add_assoc]
    cases e with
    | lineComment =>
      -- nothing is read where a line comment ends, so its body decides
      rcases Enclosure.lineComment.offsetAfter_bodySteps (o + 2) body with h | ⟨-, -, he⟩
      · exact h
      · cases he
    | _ => rfl
  | unclosed e body => exact absurd rfl (hs e body)

/-- A run over `l` from offset `o` on stops behind the last byte, or one byte further if that
is a backslash in a literal that does not end. -/
def StopsAt (o : Nat) (l : List UInt8) (ss : List Segment) (stop : Nat) : Prop :=
  stop = o + l.length ∨ stop = o + l.length + 1 ∧ l.getLast? = some Byte.backslash ∧
    ∃ e body, ss.getLast? = some (.unclosed e body) ∧ e.quote?.isSome

theorem StopsAt.cons {o stop : Nat} {l : List UInt8} {ss : List Segment} {s : Segment}
    (h : StopsAt (o + s.text.length) l ss stop) : StopsAt o (s.text ++ l) (s :: ss) stop := by
  rw [StopsAt, List.length_append, ← Nat.add_assoc]
  rcases h with h | ⟨h, hb, e, body, he, hq⟩
  · exact .inl h
  · exact .inr ⟨h, by simp [List.getLast?_append, hb], e, body, by simp [List.getLast?_cons, he], hq⟩

theorem Segmented.stopsAt {l : List UInt8} {ss : List Segment} (h : Segmented l ss) (o : Nat) :
    StopsAt o l ss (LexState.offsetAfter o (Segment.stepsFrom o ss)) := by
  induction h generalizing o with
  | nil => exact .inl rfl
  | @code b rest ss _ _ ih =>
    rw [Segment.stepsFrom, LexState.offsetAfter_append, Segment.offsetAfter_steps (by simp)]
    exact (ih _).cons
  | @closed e body rest ss _ _ ih =>
    rw [Segment.stepsFrom, LexState.offsetAfter_append, Segment.offsetAfter_steps (by simp),
      show e.opening ++ (body ++ (e.closing ++ rest)) = (Segment.closed e body).text ++ rest by simp [Segment.text]]
    exact (ih _).cons
  | @unclosed e body _ =>
    rw [Segment.stepsFrom, Segment.stepsFrom, List.append_nil, Segment.steps, LexState.offsetAfter_cons, StopsAt,
      List.length_append, ← Nat.add_assoc]
    rcases e.offsetAfter_bodySteps (o + e.opening.length) body with h | ⟨h, hl, he⟩
    · exact .inl h
    · exact .inr ⟨h, by simp [List.getLast?_append, hl], e, body, rfl, he⟩

/-! ## Main theorem -/

/-- From any offset of any bytes, the lexer reads the segments of the rest of the text, which
are the same whatever stands before. It yields exactly their code, never has two flags set,
and stops at the end of the text, or one byte further if that ends in a backslash inside a
literal. -/
theorem lexer_reads_segments (bs : List UInt8) (o : Nat) :
    ∃ ss, Segmented (bs.drop o) ss ∧ (∀ ss', Segmented (bs.drop o) ss' → ss' = ss) ∧
      LexState.plain.trace (.atOffset bs o) = Segment.stepsFrom o ss ∧
      LexState.plain.code (.atOffset bs o) = Segment.codeFrom o ss ∧
      (∀ s ∈ LexState.plain :: (LexState.plain.trace (.atOffset bs o)).map (·.step.next), s.Exclusive) ∧
      (LexState.offsetAfter o (LexState.plain.trace (.atOffset bs o)) = max o bs.length ∨
        LexState.offsetAfter o (LexState.plain.trace (.atOffset bs o)) = bs.length + 1 ∧
          bs.getLast? = some Byte.backslash ∧
          ∃ e body, ss.getLast? = some (.unclosed e body) ∧ e.quote?.isSome) := by
  obtain ⟨ss, hs⟩ := exists_segmented (bs.drop o)
  have ht : LexState.plain.trace (.atOffset bs o) = Segment.stepsFrom o ss := by
    rw [Cursor.atOffset_eq, trace_of_segmented hs]
  refine ⟨ss, hs, fun ss' h => hs.unique h, ht, ?_, ?_, ?_⟩
  · rw [Cursor.atOffset_eq, code_of_segmented hs]
  · intro s h
    rcases List.mem_cons.1 h with rfl | h
    · decide
    · rw [ht] at h
      obtain ⟨t, ht, rfl⟩ := List.mem_map.1 h
      exact Segment.exclusive_stepsFrom ht
  · rw [ht]
    have hl : o + (bs.drop o).length = max o bs.length := by
      rw [List.length_drop]
      omega
    rcases hs.stopsAt o with h | ⟨h, hb, e, body, he, hq⟩
    · exact .inl (h.trans hl)
    · have ho : o < bs.length := by
        by_contra hn
        rw [List.drop_eq_nil_of_le (by omega)] at hb
        cases hb
      refine .inr ⟨by omega, ?_, e, body, he, hq⟩
      rwa [List.getLast?_drop, if_neg (by omega)] at hb

end BodyLength
