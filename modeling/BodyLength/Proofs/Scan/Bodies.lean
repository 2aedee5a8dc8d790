import BodyLength.Proofs.Brackets.Closing
import BodyLength.Scan.Basic
import Mathlib.Algebra.GroupWithZero.Nat
/-!
# What a scan finds and how often it asks

A scan puts one question per signature and one per step of the lexer through a body. Which
signatures and steps these are is described here without an interrupt: `Body.of?` is the body of a
signature and `BraceMatch.steps` are the steps through it.

An interrupted run is compared with that by its first answer to stop. `searchFrom_eq` does so for
one body and `ofSignatures_eq` for a list of signatures, so a scan is either complete or has no
result at all (`scanUntil_complete_or_interrupted`).
-/

namespace BodyLength

/-- The number of the first question that is answered with stop, among `n` questions after
`asked` earlier ones. -/
def Interrupt.firstStop? (interrupt : Interrupt) (asked n : Nat) : Option Nat :=
  (List.range' asked n).find? interrupt.stop

namespace Interrupt

variable (interrupt : Interrupt) (asked : Nat)

theorem firstStop?_add (m n : Nat) : interrupt.firstStop? asked (m + n) =
    (interrupt.firstStop? asked m).or (interrupt.firstStop? (asked + m) n) := by
  rw [firstStop?, ← List.range'_append_1, List.find?_append]
  rfl

theorem firstStop?_of_stop {interrupt : Interrupt} {asked : Nat} (h : interrupt.stop asked) (n : Nat) :
    interrupt.firstStop? asked (n + 1) = some asked := by
  simp [firstStop?, List.range'_succ, h]

theorem firstStop?_of_not_stop {interrupt : Interrupt} {asked : Nat} (h : ¬ interrupt.stop asked) (n : Nat) :
    interrupt.firstStop? asked (n + 1) = interrupt.firstStop? (asked + 1) n := by
  simp [firstStop?, List.range'_succ, h]

theorem firstStop?_never (n : Nat) : never.firstStop? asked n = none := by
  simp [firstStop?, never]

theorem firstStop?_eq_none {interrupt : Interrupt} {n : Nat} :
    interrupt.firstStop? 0 n = none ↔ ∀ i < n, interrupt.stop i = false := by
  simp [firstStop?, List.find?_eq_none]

theorem firstStop?_eq_some {interrupt : Interrupt} {n k : Nat} : interrupt.firstStop? 0 n = some k ↔
    k < n ∧ interrupt.stop k = true ∧ ∀ i < k, interrupt.stop i = false := by
  rw [firstStop?, ← List.range_eq_range', List.find?_range_eq_some]
  simp [and_left_comm]

end Interrupt

/-! ## Steps through a body -/

namespace LexState

theorem trace_of_nil (s : LexState) {c : Cursor} (h : c.rest = []) : s.trace c = [] := by
  obtain ⟨o, p, l⟩ := c
  cases h
  exact trace_nil s o p

theorem trace_of_cons (s : LexState) {c : Cursor} {b : UInt8} {r : List UInt8} (h : c.rest = b :: r) :
    s.trace c = ⟨c.offset, s.stepAt c b r⟩ :: (s.stepAt c b r).next.trace (c.skip (s.stepAt c b r).advance) := by
  obtain ⟨o, p, l⟩ := c
  cases h
  exact trace_cons s o p b r

theorem offset_le_of_mem_trace {s : LexState} {c : Cursor} {t : TracedStep} (h : t ∈ s.trace c) :
    c.offset ≤ t.offset := by
  fun_induction trace s c with
  | case1 => simp at h
  | case2 s c b r hc ih =>
    rcases List.mem_cons.1 h with rfl | h
    · exact Nat.le_refl _
    · have := ih h
      rw [Cursor.offset_skip] at this
      omega

end LexState

namespace BraceMatch

/-- The steps from a place in a body where `depth` inner braces are to be closed: those up to the
closing brace, or all if there is none. -/
def stepsFrom (depth : Nat) (s : LexState) (c : Cursor) : List TracedStep :=
  (s.trace c).filter fun t => (Brackets.braces.closing depth (s.code c)).all (t.offset ≤ ·)

/-- The steps of the lexer through the body that opens at `c`. -/
def steps (c : Cursor) : List TracedStep := stepsFrom 0 .plain (c.skip 1)

theorem stepsFrom_of_nil (depth : Nat) (s : LexState) {c : Cursor} (h : c.rest = []) : stepsFrom depth s c = [] := by
  rw [stepsFrom, s.trace_of_nil h, List.filter_nil]

section
variable {depth : Nat} {s : LexState} {c : Cursor} {b : UInt8} {r : List UInt8} (h : c.rest = b :: r)
include h

/-- A step that yields the closing brace is the last. -/
theorem stepsFrom_of_ends (he : (s.stepAt c b r).code = some Byte.rightBrace ∧ depth = 0) :
    stepsFrom depth s c = [⟨c.offset, s.stepAt c b r⟩] := by
  obtain ⟨hb, rfl⟩ := he
  have hclose : Brackets.braces.closing 0 (s.code c) = some c.offset := by
    rw [s.code_of_cons h, hb]
    rfl
  have hadvance : (s.stepAt c b r).advance = 1 := (s.advance_step_of_code _ _ _ _ hb).2
  rw [stepsFrom, hclose, s.trace_of_cons h, List.filter_cons_of_pos (by simp)]
  congr 1
  rw [List.filter_eq_nil_iff]
  intro t ht
  have := LexState.offset_le_of_mem_trace ht
  rw [Cursor.offset_skip, hadvance] at this
  simp
  omega

/-- Any other step is followed by those from the place it comes to. -/
theorem stepsFrom_of_not_ends (he : ¬ ((s.stepAt c b r).code = some Byte.rightBrace ∧ depth = 0)) :
    stepsFrom depth s c = ⟨c.offset, s.stepAt c b r⟩ ::
      stepsFrom (depthAfter depth (s.stepAt c b r).code) (s.stepAt c b r).next (c.skip (s.stepAt c b r).advance) := by
  rw [← Brackets.ends_braces, Bool.not_eq_true] at he
  have hclose : Brackets.braces.closing depth (s.code c) =
      Brackets.braces.closing (depthAfter depth (s.stepAt c b r).code)
        ((s.stepAt c b r).next.code (c.skip (s.stepAt c b r).advance)) := by
    rw [s.code_of_cons h, Brackets.closing_of_not_ends he]
    rfl
  rw [stepsFrom, hclose, s.trace_of_cons h, List.filter_cons_of_pos, stepsFrom]
  rw [Option.all_eq_true]
  intro p hp
  have hle := SignatureMode.literalAware.le_of_closing hp
  rw [Cursor.offset_skip] at hle
  simp only [decide_eq_true_eq]
  omega

end

/-- A search takes its steps unless it is told to stop at one of them. -/
theorem searchFrom_eq (interrupt : Interrupt) (asked depth : Nat) (s : LexState) (c : Cursor) :
    searchFrom interrupt asked depth s c =
      match interrupt.firstStop? asked (stepsFrom depth s c).length with
      | some k => (.interrupted, k + 1)
      | none => (ofOffset? (Brackets.braces.closing depth (s.code c)), asked + (stepsFrom depth s c).length) := by
  fun_induction searchFrom interrupt asked depth s c with
  | case1 asked depth s c hc =>
    rw [stepsFrom_of_nil depth s hc, s.code_of_nil hc]
    rfl
  | case2 asked depth s c b r hc hstop =>
    obtain ⟨t, ts, hsteps⟩ : ∃ t ts, stepsFrom depth s c = t :: ts := by
      by_cases he : (s.stepAt c b r).code = some Byte.rightBrace ∧ depth = 0
      · exact ⟨_, _, stepsFrom_of_ends hc he⟩
      · exact ⟨_, _, stepsFrom_of_not_ends hc he⟩
    rw [hsteps, List.length_cons, Interrupt.firstStop?_of_stop hstop]
  | case3 asked depth s c b r hc hstop step he =>
    rw [stepsFrom_of_ends hc he, s.code_of_cons hc, he.2, show (s.stepAt c b r).code = some Byte.rightBrace from he.1,
      List.length_singleton, Interrupt.firstStop?_of_not_stop hstop]
    rfl
  | case4 asked depth s c b r hc hstop step he ih =>
    rw [ih, stepsFrom_of_not_ends hc he, List.length_cons, Interrupt.firstStop?_of_not_stop hstop]
    have hends : Brackets.braces.ends depth step.code = false := by
      rwa [Bool.eq_false_iff, Ne, Brackets.ends_braces]
    rw [s.code_of_cons hc, Brackets.closing_of_not_ends hends, Nat.add_assoc, Nat.add_comm 1]
    rfl

theorem search_eq (interrupt : Interrupt) (asked : Nat) (c : Cursor) : search interrupt asked c =
    match interrupt.firstStop? asked (steps c).length with
    | some k => (.interrupted, k + 1)
    | none => (ofOffset? (Brackets.braces.closing 0 (LexState.plain.code (c.skip 1))), asked + (steps c).length) :=
  searchFrom_eq ..

end BraceMatch

/-! ## Signatures and their bodies -/

/-- The body of a signature, if it has one that closes. -/
def Body.of? (placement : BracePlacement) (x : Signature) : Option Body :=
  (placement.locate? x.behind).bind fun brace =>
    (Brackets.braces.closing 0 (LexState.plain.code (brace.skip 1))).map fun close => ⟨x, brace, close⟩

namespace Survey

/-- Whether the body of a signature never closes. -/
def isUnbalanced (placement : BracePlacement) (x : Signature) : Bool :=
  (placement.locate? x.behind).any fun brace =>
    (Brackets.braces.closing 0 (LexState.plain.code (brace.skip 1))).isNone

/-- What the signatures come to if nothing interrupts. -/
def complete (placement : BracePlacement) (xs : List Signature) : Survey where
  bodies := xs.filterMap (Body.of? placement)
  unbalanced := xs.countP (isUnbalanced placement)

/-- One question per signature and one per step through each of their bodies. -/
def questions (placement : BracePlacement) (xs : List Signature) : Nat :=
  xs.length + ((xs.filterMap fun x => placement.locate? x.behind).map fun brace =>
    (BraceMatch.steps brace).length).sum

variable (placement : BracePlacement) (x : Signature) (xs : List Signature)

theorem questions_cons_of_none (h : placement.locate? x.behind = none) :
    questions placement (x :: xs) = questions placement xs + 1 := by
  simp only [questions, List.length_cons, List.filterMap_cons, h]
  omega

theorem questions_cons_of_some {brace : Cursor} (h : placement.locate? x.behind = some brace) :
    questions placement (x :: xs) = (BraceMatch.steps brace).length + questions placement xs + 1 := by
  simp only [questions, List.length_cons, List.filterMap_cons, h, List.map_cons, List.sum_cons]
  omega

theorem complete_cons_of_none (h : placement.locate? x.behind = none) :
    complete placement (x :: xs) = complete placement xs := by
  simp [complete, Body.of?, isUnbalanced, h]

/-- What one located body adds. -/
theorem complete_cons_of_some {brace : Cursor} (h : placement.locate? x.behind = some brace) :
    complete placement (x :: xs) =
      match Brackets.braces.closing 0 (LexState.plain.code (brace.skip 1)) with
      | some close => (complete placement xs).addBody ⟨x, brace, close⟩
      | none => (complete placement xs).addUnbalanced := by
  cases hc : Brackets.braces.closing 0 (LexState.plain.code (brace.skip 1)) with
  | some close => simp [complete, addBody, Body.of?, isUnbalanced, h, hc]
  | none => simp [complete, addUnbalanced, Body.of?, isUnbalanced, h, hc]

/-- A survey is complete unless one of its questions is answered with stop. -/
theorem ofSignatures_eq (interrupt : Interrupt) (asked : Nat) :
    ofSignatures placement interrupt asked xs =
      match interrupt.firstStop? asked (questions placement xs) with
      | some k => (none, k + 1)
      | none => (some (complete placement xs), asked + questions placement xs) := by
  induction xs generalizing asked with
  | nil => rfl
  | cons x xs ih =>
    rw [ofSignatures]
    by_cases hstop : interrupt.stop asked
    · -- stopped before the body is looked for, so it does not matter what comes
      obtain ⟨n, hn⟩ : ∃ n, questions placement (x :: xs) = n + 1 := ⟨_, Nat.add_right_comm ..⟩
      rw [if_pos hstop, hn, Interrupt.firstStop?_of_stop hstop]
    rw [if_neg hstop]
    cases hl : placement.locate? x.behind with
    | none =>
      simp only [questions_cons_of_none placement x xs hl, complete_cons_of_none placement x xs hl,
        Interrupt.firstStop?_of_not_stop hstop, ih, Nat.add_assoc, Nat.add_comm 1]
    | some brace =>
      simp only [questions_cons_of_some placement x xs hl, complete_cons_of_some placement x xs hl,
        Interrupt.firstStop?_of_not_stop hstop, Interrupt.firstStop?_add, BraceMatch.search_eq]
      cases interrupt.firstStop? (asked + 1) (BraceMatch.steps brace).length with
      | some k => rfl
      | none =>
        have hsum : asked + ((BraceMatch.steps brace).length + questions placement xs + 1) =
            asked + 1 + (BraceMatch.steps brace).length + questions placement xs := by omega
        simp only [Option.none_or, hsum]
        -- what the others come to decides, whether or not this body closes
        have hrest := ih (asked + 1 + (BraceMatch.steps brace).length)
        cases Brackets.braces.closing 0 (LexState.plain.code (brace.skip 1)) with
        | none =>
          simp only [BraceMatch.ofOffset?, hrest]
          split <;> rfl
        | some close =>
          simp only [BraceMatch.ofOffset?, hrest]
          split <;> rfl

end Survey

/-! ## Scans -/

/-- The bodies of a text in the order of their signatures. -/
def bodies (text : String) (options : ScanOptions) : List Body :=
  (signatures options.signatureMode text).filterMap (Body.of? options.bracePlacement)

/-- The reports on the bodies of a text. -/
def bodyReports (text : String) (options : ScanOptions) : List FunctionReport :=
  (bodies text options).map (Body.report (.ofBytes (bytes text)) options.maxLines)

/-- How many questions a scan puts if it is not interrupted. -/
def questions (text : String) (options : ScanOptions) : Nat :=
  Survey.questions options.bracePlacement (signatures options.signatureMode text)

theorem scanUntil_eq (text : String) (options : ScanOptions) (interrupt : Interrupt) :
    scanUntil text options interrupt =
      match interrupt.firstStop? 0 (questions text options) with
      | some k => (none, k + 1)
      | none => (some (bodyReports text options), questions text options) := by
  rw [scanUntil, surveyUntil, Survey.ofSignatures_eq, ← questions]
  cases interrupt.firstStop? 0 (questions text options) with
  | some k => rfl
  | none =>
    simp only [Nat.zero_add]
    rfl

theorem scan_eq (text : String) (options : ScanOptions) : scan text options = bodyReports text options := by
  rw [scan, scanUntil_eq, Interrupt.firstStop?_never]
  rfl

/-! ## Main theorem -/

/-- An interrupted scan gives nothing and has put no question behind the first one answered with
stop. Any other scan puts all its questions and gives what a plain scan gives, which always has a
result. -/
theorem scanUntil_complete_or_interrupted (text : String) (options : ScanOptions) (interrupt : Interrupt) :
    (((∀ i < questions text options, interrupt.stop i = false) ∧
        scanUntil text options interrupt = (some (scan text options), questions text options)) ∨
      ∃ k < questions text options, interrupt.stop k = true ∧ (∀ i < k, interrupt.stop i = false) ∧
        scanUntil text options interrupt = (none, k + 1)) ∧
      (scanUntil text options .never).1 = some (scan text options) := by
  refine ⟨?_, ?_⟩
  · rw [scanUntil_eq, scan_eq]
    cases h : interrupt.firstStop? 0 (questions text options) with
    | none => exact .inl ⟨Interrupt.firstStop?_eq_none.1 h, rfl⟩
    | some k =>
      obtain ⟨hk, hstop, hbefore⟩ := Interrupt.firstStop?_eq_some.1 h
      exact .inr ⟨k, hk, hstop, hbefore, rfl⟩
  · rw [scanUntil_eq, scan_eq, Interrupt.firstStop?_never]

end BodyLength
