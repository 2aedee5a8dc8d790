import BodyLength.Proofs.Scan.LineAccounts
/-!
# A scan with all its checks

A scan reads bytes at offsets, leaves brackets, cuts texts and adds to line numbers. None of this
is defined everywhere. `Checked` is the scan over offsets in which each such operation is checked
and ends the scan with a `Fault` outside its domain, and so does a loop that does not move on.

Every function here is followed by what it comes to, which is never a fault: what the function of
the same purpose on cursors gives. In the end the checked scan is the scan
(`scanUntil_without_fault`).
-/

namespace BodyLength

namespace Checked

/-- An operation outside its domain. -/
inductive Fault where
  /-- There is no byte at this offset. -/
  | noByte (offset : Nat)
  /-- More brackets are left than were entered. -/
  | noDepth
  /-- A range of bytes ends before it begins or behind the end of the text. -/
  | noRange (first last : Nat)
  /-- A piece of a text is no such range, or begins or ends inside a character. -/
  | splitsCharacter (first last : Nat)
  /-- The line below has no number. -/
  | noLine
  /-- A loop does not move on. -/
  | stuck
deriving DecidableEq, Repr

theorem ok_bind {α β : Type} (a : α) (f : α → Except Fault β) : (Except.ok a >>= f) = f a := rfl

/-! ## Operations -/

def byteAt (bs : List UInt8) (i : Nat) : Except Fault UInt8 :=
  match bs[i]? with
  | some b => .ok b
  | none => .error (.noByte i)

/-- The byte at an offset, unless that is the end of the text. -/
def byteUpTo (bs : List UInt8) (i : Nat) : Except Fault (Option UInt8) :=
  if i < bs.length then some <$> byteAt bs i else pure none

/-- The depth behind a closing bracket at some depth. -/
def leave (depth : Nat) : Except Fault Nat :=
  if depth = 0 then .error .noDepth else .ok (depth - 1)

def range (bs : List UInt8) (i j : Nat) : Except Fault (List UInt8) :=
  if i ≤ j ∧ j ≤ bs.length then .ok ((bs.drop i).take (j - i)) else .error (.noRange i j)

/-- The text from offset `i` to offset `j`. -/
def slice (s : String) (i j : Nat) : Except Fault String :=
  if h : i ≤ j ∧ String.Pos.Raw.IsValid s ⟨i⟩ ∧ String.Pos.Raw.IsValid s ⟨j⟩ then
    .ok (String.extract ⟨⟨i⟩, h.2.1⟩ ⟨⟨j⟩, h.2.2⟩)
  else .error (.splitsCharacter i j)

def lineBelow (line : UInt32) : Except Fault UInt32 :=
  if line.toNat + 1 < 2 ^ 32 then .ok (line + 1) else .error .noLine

theorem byteAt_eq {bs : List UInt8} {i : Nat} {b : UInt8} (h : bs[i]? = some b) : byteAt bs i = .ok b := by
  rw [byteAt, h]

theorem byteUpTo_eq (bs : List UInt8) (i : Nat) : byteUpTo bs i = .ok bs[i]? := by
  rw [byteUpTo]
  split
  next h =>
    rw [List.getElem?_eq_getElem h, byteAt_eq (List.getElem?_eq_getElem h)]
    rfl
  next h =>
    rw [List.getElem?_eq_none (Nat.le_of_not_lt h)]
    rfl

theorem leave_succ (depth : Nat) : leave (depth + 1) = .ok depth := rfl

theorem bytes_extract {s : String} (p q : s.Pos) : bytes (String.extract p q) =
    ((bytes s).drop p.offset.byteIdx).take (q.offset.byteIdx - p.offset.byteIdx) := by
  show (String.extract p q).toByteArray.data.toList = _
  rw [String.toByteArray_extract, ByteArray.data_extract, Array.toList_extract, List.extract_eq_take_drop]
  rfl

/-- Cutting a text between characters gives the bytes in between. -/
theorem slice_eq {s : String} {i j : Nat} (hij : i ≤ j) (hi : String.Pos.Raw.IsValid s ⟨i⟩)
    (hj : String.Pos.Raw.IsValid s ⟨j⟩) :
    ∃ t, slice s i j = .ok t ∧ bytes t = ((bytes s).drop i).take (j - i) :=
  ⟨_, dif_pos ⟨hij, hi, hj⟩, bytes_extract _ _⟩

example : slice "é" 0 1 = .error (.splitsCharacter 0 1) := by decide

/-- A text may be cut before and behind a byte below 128. -/
theorem isValid_of_lt {s : String} {i : Nat} {b : UInt8} (h : (bytes s)[i]? = some b) (hb : b < 128) :
    String.Pos.Raw.IsValid s ⟨i⟩ ∧ String.Pos.Raw.IsValid s ⟨i + 1⟩ := by
  have hs := eq_take_append_of_getElem? h
  obtain ⟨u, v, w, hu, hv, hw⟩ := bytes_split hs hb
  have huvw : s = u ++ (v ++ w) := by
    apply bytes_injective
    rw [bytes_append, bytes_append, hu, hv, hw]
    exact hs
  have hi : i = (bytes u).length := by
    rw [hu, List.length_take, Nat.min_eq_left (Nat.le_of_lt (List.getElem?_eq_some_iff.1 h).1)]
  have hlength (t : String) : (⟨(bytes t).length⟩ : String.Pos.Raw) = t.rawEndPos := rfl
  constructor
  · exact String.Pos.Raw.isValid_iff_exists_append.2 ⟨u, v ++ w, huvw, by rw [hi, hlength]⟩
  · refine String.Pos.Raw.isValid_iff_exists_append.2 ⟨u ++ v, w, by rw [huvw, String.append_assoc], ?_⟩
    rw [← hlength, bytes_append, List.length_append, ← hi, hv]
    rfl

/-! ## Reading -/

theorem lt_length_of_drop {bs r : List UInt8} {pos : Nat} {b : UInt8} (h : bs.drop pos = b :: r) : pos < bs.length := by
  rw [← List.drop_eq_nil_iff.not.trans Nat.not_le, h]
  exact List.cons_ne_nil b r

def lexStep (s : LexState) (bs : List UInt8) (pos : Nat) : Except Fault LexStep := do
  let b ← byteAt bs pos
  -- only where a block comment may end is the byte before read
  let before ←
    if s.inBlockComment ∧ b = Byte.slash ∧ 0 < pos then some <$> byteAt bs (pos - 1) else pure none
  return s.step before b bs[pos + 1]?

def read (mode : SignatureMode) (s : LexState) (bs : List UInt8) (pos : Nat) : Except Fault LexStep :=
  match mode with
  | .baseline => do return ⟨1, some (← byteAt bs pos), s⟩
  | .literalAware => lexStep s bs pos

theorem step_before_irrel {s : LexState} {b : UInt8} (h : ¬ (s.inBlockComment ∧ b = Byte.slash))
    (before before' after : Option UInt8) : s.step before b after = s.step before' b after := by
  have hcomment : s.stepComment before b = s.stepComment before' b := by
    rw [LexState.stepComment, LexState.stepComment]
    grind
  rw [LexState.step, LexState.step, hcomment]

theorem lexStep_eq (s : LexState) {bs r : List UInt8} {pos : Nat} {b : UInt8} (h : bs.drop pos = b :: r) :
    lexStep s bs pos = .ok (s.stepAt (.atOffset bs pos) b r) := by
  have hb : bs[pos]? = some b := by rw [← List.head?_drop, h, List.head?_cons]
  have hr : bs[pos + 1]? = r.head? := by rw [← List.head?_drop, ← List.drop_drop, h, List.drop_one, List.tail_cons]
  rw [lexStep, byteAt_eq hb, ok_bind, hr, LexState.stepAt]
  split
  next hread =>
    obtain ⟨n, rfl⟩ : ∃ n, pos = n + 1 := Nat.exists_eq_add_one.2 hread.2.2
    obtain ⟨hn, -⟩ := List.getElem?_eq_some_iff.1 hb
    have hbefore : bs[n]? = some bs[n] := List.getElem?_eq_getElem (Nat.lt_of_succ_lt hn)
    rw [Nat.add_sub_cancel, byteAt_eq hbefore, Cursor.before_atOffset_succ, hbefore]
    rfl
  next hread =>
    show Except.ok (s.step none b r.head?) = _
    cases pos with
    | zero => rfl
    | succ n =>
      have hirrel : ¬ (s.inBlockComment ∧ b = Byte.slash) := fun hs => hread ⟨hs.1, hs.2, Nat.succ_pos n⟩
      rw [step_before_irrel hirrel]

theorem read_eq (mode : SignatureMode) (s : LexState) {bs r : List UInt8} {pos : Nat} {b : UInt8}
    (h : bs.drop pos = b :: r) : read mode s bs pos = .ok (mode.read s (.atOffset bs pos) b r) := by
  cases mode with
  | baseline =>
    have hb : bs[pos]? = some b := by rw [← List.head?_drop, h, List.head?_cons]
    rw [read, byteAt_eq hb]
    rfl
  | literalAware => exact lexStep_eq s h

/-- The first offset from `pos` on whose byte fails `p`, or the end of the text. -/
def skipWhile (bs : List UInt8) (p : UInt8 → Bool) (pos : Nat) : Except Fault Nat :=
  if _h : pos < bs.length then do
    if p (← byteAt bs pos) then skipWhile bs p (pos + 1) else return pos
  else return pos
termination_by bs.length - pos

theorem skipWhile_eq (bs : List UInt8) (p : UInt8 → Bool) (pos : Nat) :
    skipWhile bs p pos = .ok ((Cursor.atOffset bs pos).skipWhile p).offset := by
  rw [Cursor.skipWhile, Cursor.offset_skip, Cursor.offset_atOffset, Cursor.rest_atOffset]
  induction hn : bs.drop pos generalizing pos with
  | nil =>
    have hle := List.drop_eq_nil_iff.1 hn
    rw [skipWhile, dif_neg (Nat.not_lt.2 hle)]
    rfl
  | cons b r ih =>
    have hlt := lt_length_of_drop hn
    have hb : bs[pos]? = some b := by rw [← List.head?_drop, hn, List.head?_cons]
    have hr : bs.drop (pos + 1) = r := by rw [← List.drop_drop, hn, List.drop_one, List.tail_cons]
    rw [skipWhile, dif_pos hlt, byteAt_eq hb, ok_bind]
    by_cases hp : p b
    · rw [if_pos hp, ih (pos + 1) hr, List.takeWhile_cons_of_pos hp, List.length_cons, Nat.add_right_comm, Nat.add_assoc]
    · rw [if_neg hp, List.takeWhile_cons_of_neg hp]
      rfl

/-! ## Searching for closing brackets -/

/-- The offset behind the parenthesis that closes a list, from a place inside it with `depth`
parentheses to close. -/
def closeParen (mode : SignatureMode) (bs : List UInt8) (depth : Nat) (s : LexState) (pos : Nat) :
    Except Fault (Option Nat) :=
  if _h : pos < bs.length then do
    let step ← read mode s bs pos
    if _hm : 0 < step.advance then
      if step.code = some Byte.leftParen then
        closeParen mode bs (depth + 1) step.next (pos + step.advance)
      else if step.code = some Byte.rightParen then do
        let depth ← leave depth
        if depth = 0 then return some (pos + 1)
        else closeParen mode bs depth step.next (pos + step.advance)
      else if step.code = some Byte.semicolon ∧ depth = 1 then return none
      else closeParen mode bs depth step.next (pos + step.advance)
    else .error .stuck
  else return none
termination_by bs.length - pos

/-- What becomes of a brace with `depth` braces to close. -/
def closeBrace (interrupt : Interrupt) (bs : List UInt8) (asked depth : Nat) (s : LexState) (pos : Nat) :
    Except Fault (BraceMatch × Nat) :=
  if _h : pos < bs.length then
    if interrupt.stop asked then return (.interrupted, asked + 1)
    else do
      let step ← lexStep s bs pos
      if _hm : 0 < step.advance then
        if step.code = some Byte.leftBrace then
          closeBrace interrupt bs (asked + 1) (depth + 1) step.next (pos + step.advance)
        else if step.code = some Byte.rightBrace then do
          let depth ← leave depth
          if depth = 0 then return (.closed pos, asked + 1)
          else closeBrace interrupt bs (asked + 1) depth step.next (pos + step.advance)
        else closeBrace interrupt bs (asked + 1) depth step.next (pos + step.advance)
      else .error .stuck
  else return (.unbalanced, asked)
termination_by bs.length - pos

/-- Where a byte is left, a search for a parenthesis takes a step. -/
theorem closeParen_of_drop (mode : SignatureMode) (depth : Nat) (s : LexState) {bs r : List UInt8} {pos : Nat}
    {b : UInt8} (h : bs.drop pos = b :: r) : closeParen mode bs depth s pos =
      let step := mode.read s (.atOffset bs pos) b r
      if step.code = some Byte.leftParen then closeParen mode bs (depth + 1) step.next (pos + step.advance)
      else if step.code = some Byte.rightParen then do
        let depth ← leave depth
        if depth = 0 then return some (pos + 1)
        else closeParen mode bs depth step.next (pos + step.advance)
      else if step.code = some Byte.semicolon ∧ depth = 1 then return none
      else closeParen mode bs depth step.next (pos + step.advance) := by
  rw [closeParen, dif_pos (lt_length_of_drop h), read_eq mode s h, ok_bind, dif_pos (mode.advance_read_pos ..)]

theorem closeParen_eq (mode : SignatureMode) (bs : List UInt8) (depth : Nat) (s : LexState) (c : Cursor) :
    ∀ pos, c = .atOffset bs pos →
      closeParen mode bs (depth + 1) s pos = .ok ((mode.closeFrom depth s c).map (·.offset)) := by
  fun_induction SignatureMode.closeFrom mode depth s c with
  | case1 depth s c hc =>
    rintro pos rfl
    rw [Cursor.rest_atOffset, List.drop_eq_nil_iff] at hc
    rw [closeParen, dif_neg (Nat.not_lt.2 hc)]
    rfl
  | case2 depth s c b r hc step hl ih =>
    rintro pos rfl
    rw [Cursor.rest_atOffset] at hc
    rw [closeParen_of_drop mode _ s hc]
    dsimp only
    rw [if_pos hl]
    exact ih _ (Cursor.skip_atOffset ..)
  | case3 s c b r hc step hl hr =>
    rintro pos rfl
    rw [Cursor.rest_atOffset] at hc
    rw [closeParen_of_drop mode _ s hc]
    dsimp only
    rw [if_neg hl, if_pos hr, leave_succ, ok_bind, if_pos rfl, Cursor.skip_atOffset, Option.map_some, Cursor.offset_atOffset]
    rfl
  | case4 depth s c b r hc step hl hr hd ih =>
    rintro pos rfl
    obtain ⟨depth, rfl⟩ := Nat.exists_eq_succ_of_ne_zero hd
    rw [Cursor.rest_atOffset] at hc
    rw [closeParen_of_drop mode _ s hc]
    dsimp only
    rw [if_neg hl, if_pos hr, leave_succ, ok_bind, if_neg hd]
    exact ih _ (Cursor.skip_atOffset ..)
  | case5 depth s c b r hc step hl hr hs =>
    rintro pos rfl
    obtain ⟨hs, rfl⟩ := hs
    rw [Cursor.rest_atOffset] at hc
    rw [closeParen_of_drop mode _ s hc]
    dsimp only
    rw [if_neg hl, if_neg hr, if_pos ⟨hs, rfl⟩]
    rfl
  | case6 depth s c b r hc step hl hr hs ih =>
    rintro pos rfl
    rw [Cursor.rest_atOffset] at hc
    rw [closeParen_of_drop mode _ s hc]
    dsimp only
    rw [if_neg hl, if_neg hr, if_neg (fun h => hs ⟨h.1, Nat.succ.inj h.2⟩)]
    exact ih _ (Cursor.skip_atOffset ..)

/-- Where a byte is left and nothing interrupts, a search for a brace takes a step. -/
theorem closeBrace_of_drop {interrupt : Interrupt} {asked : Nat} (hstop : ¬ interrupt.stop asked) (depth : Nat)
    (s : LexState) {bs r : List UInt8} {pos : Nat} {b : UInt8} (h : bs.drop pos = b :: r) :
    closeBrace interrupt bs asked depth s pos =
      let step := s.stepAt (.atOffset bs pos) b r
      if step.code = some Byte.leftBrace then
        closeBrace interrupt bs (asked + 1) (depth + 1) step.next (pos + step.advance)
      else if step.code = some Byte.rightBrace then do
        let depth ← leave depth
        if depth = 0 then return (.closed pos, asked + 1)
        else closeBrace interrupt bs (asked + 1) depth step.next (pos + step.advance)
      else closeBrace interrupt bs (asked + 1) depth step.next (pos + step.advance) := by
  have hadvance : 0 < (s.stepAt (.atOffset bs pos) b r).advance :=
    SignatureMode.literalAware.advance_read_pos s _ b r
  rw [closeBrace, dif_pos (lt_length_of_drop h), if_neg hstop, lexStep_eq s h, ok_bind, dif_pos hadvance]

theorem closeBrace_eq (interrupt : Interrupt) (bs : List UInt8) (asked depth : Nat) (s : LexState) (c : Cursor) :
    ∀ pos, c = .atOffset bs pos →
      closeBrace interrupt bs asked (depth + 1) s pos = .ok (BraceMatch.searchFrom interrupt asked depth s c) := by
  fun_induction BraceMatch.searchFrom interrupt asked depth s c with
  | case1 asked depth s c hc =>
    rintro pos rfl
    rw [Cursor.rest_atOffset, List.drop_eq_nil_iff] at hc
    rw [closeBrace, dif_neg (Nat.not_lt.2 hc)]
    rfl
  | case2 asked depth s c b r hc hstop =>
    rintro pos rfl
    rw [Cursor.rest_atOffset] at hc
    rw [closeBrace, dif_pos (lt_length_of_drop hc), if_pos hstop]
    rfl
  | case3 asked depth s c b r hc hstop step h =>
    rintro pos rfl
    obtain ⟨hb, rfl⟩ := h
    rw [Cursor.rest_atOffset] at hc
    rw [closeBrace_of_drop hstop _ s hc]
    dsimp only
    rw [if_neg (by rw [hb]; decide), if_pos hb, leave_succ, ok_bind, if_pos rfl, Cursor.offset_atOffset]
    rfl
  | case4 asked depth s c b r hc hstop step h ih =>
    rintro pos rfl
    rw [Cursor.rest_atOffset] at hc
    rw [closeBrace_of_drop hstop _ s hc]
    rw [← ih _ (Cursor.skip_atOffset ..), BraceMatch.depthAfter]
    dsimp only
    by_cases hl : step.code = some Byte.leftBrace
    · rw [if_pos hl, if_pos hl]
    by_cases hr : step.code = some Byte.rightBrace
    · obtain ⟨depth, rfl⟩ := Nat.exists_eq_succ_of_ne_zero fun hd => h ⟨hr, hd⟩
      rw [if_neg hl, if_pos hr, if_neg hl, if_pos hr, leave_succ, ok_bind, if_neg (Nat.succ_ne_zero depth)]
      rfl
    · rw [if_neg hl, if_neg hr, if_neg hl, if_neg hr]

/-! ## Finding signatures -/

/-- A candidate with its text. -/
structure Candidate where
  start : Nat
  stop : Nat
  raw : String

/-- The first candidate from an offset on, and the offset to search on from. -/
def next (mode : SignatureMode) (text : String) (pos : Nat) : Except Fault (Option Candidate × Nat) := do
  let start ← skipWhile (bytes text) (!Byte.isIdentifier ·) pos
  if start < (bytes text).length then
    let paren ← skipWhile (bytes text) Byte.isIdentifier start
    if _h : pos < paren ∧ paren ≤ (bytes text).length then
      if (← byteUpTo (bytes text) paren) = some Byte.leftParen then
        match ← closeParen mode (bytes text) 1 .plain (paren + 1) with
        | some stop => return (some ⟨start, stop, ← slice text start stop⟩, stop)
        | none => next mode text (paren + 1)
      else next mode text paren
    else .error .stuck
  else return (none, start)
termination_by (bytes text).length - pos

/-- A signature over offsets. -/
def Candidate.ofSignature (x : Signature) : Candidate := ⟨x.start, x.stop, x.rawText?.getD ""⟩

theorem offset_skipWhile_le {bs : List UInt8} {pos : Nat} (h : pos ≤ bs.length) (p : UInt8 → Bool) :
    ((Cursor.atOffset bs pos).skipWhile p).offset ≤ bs.length := by
  have hle := (List.takeWhile_sublist p (l := bs.drop pos)).length_le
  rw [List.length_drop] at hle
  rw [Cursor.skipWhile, Cursor.offset_skip, Cursor.offset_atOffset, Cursor.rest_atOffset]
  omega

/-- With no identifier left, nothing is found. -/
theorem next_of_nil (mode : SignatureMode) {text : String} {pos : Nat}
    (h : (Signature.identifierFrom (.atOffset (bytes text) pos)).rest = []) :
    next mode text pos = .ok (none, (Signature.identifierFrom (.atOffset (bytes text) pos)).offset) := by
  obtain ⟨j, hj, -⟩ := Cursor.skipWhile_atOffset (bytes text) pos (!Byte.isIdentifier ·)
  rw [Signature.identifierFrom, hj] at h ⊢
  rw [Cursor.rest_atOffset, List.drop_eq_nil_iff] at h
  rw [next, skipWhile_eq, ok_bind, hj, Cursor.offset_atOffset, if_neg (Nat.not_lt.2 h)]
  rfl

/-- Behind an identifier, a parenthesis decides. -/
theorem next_of_cons (mode : SignatureMode) {text : String} {pos : Nat} {b : UInt8} {r : List UInt8}
    (h : (Signature.identifierFrom (.atOffset (bytes text) pos)).rest = b :: r) :
    ∃ j k, Signature.identifierFrom (.atOffset (bytes text) pos) = .atOffset (bytes text) j ∧
      (Signature.identifierFrom (.atOffset (bytes text) pos)).skipWhile Byte.isIdentifier = .atOffset (bytes text) k ∧
      (bytes text)[j]? = some b ∧ Byte.isIdentifier b ∧ j < k ∧
      next mode text pos =
        if (bytes text)[k]? = some Byte.leftParen then
          match (mode.close? (.atOffset (bytes text) (k + 1))).map (·.offset) with
          | some stop => (slice text j stop).map fun raw => (some ⟨j, stop, raw⟩, stop)
          | none => next mode text (k + 1)
        else next mode text k := by
  obtain ⟨j, k, hj, hk, hij, hjk, -, -, hid, hbehind⟩ := Signature.identifierFrom_atOffset (bytes text) pos
  rw [hj, Cursor.rest_atOffset] at h
  have hb : (bytes text)[j]? = some b := by rw [← List.head?_drop, h, List.head?_cons]
  have hne : j ≠ k := by
    rintro rfl
    rw [identifierAt_of_eq hb, hid b hb] at hbehind
    cases hbehind
  have hkl : k ≤ (bytes text).length := by
    have := offset_skipWhile_le (Nat.le_of_lt (lt_length_of_drop h)) Byte.isIdentifier
    rwa [← hj, hk, Cursor.offset_atOffset] at this
  have hstart : skipWhile (bytes text) (!Byte.isIdentifier ·) pos = .ok j := by
    rw [skipWhile_eq, ← Signature.identifierFrom, hj, Cursor.offset_atOffset]
  have hparen : skipWhile (bytes text) Byte.isIdentifier j = .ok k := by
    rw [skipWhile_eq, ← hj, hk, Cursor.offset_atOffset]
  have hclose : closeParen mode (bytes text) 1 .plain (k + 1) =
      .ok ((mode.close? (.atOffset (bytes text) (k + 1))).map (·.offset)) :=
    closeParen_eq mode (bytes text) 0 .plain _ (k + 1) rfl
  refine ⟨j, k, hj, hk, hb, hid b hb, by omega, ?_⟩
  rw [next, hstart, ok_bind, if_pos (lt_length_of_drop h), hparen, ok_bind, dif_pos ⟨by omega, hkl⟩, byteUpTo_eq,
    ok_bind, hclose, ok_bind]
  cases mode.close? (.atOffset (bytes text) (k + 1)) with
  | none => rfl
  | some behind =>
    dsimp only [Option.map_some]
    cases slice text j behind.offset <;> rfl

theorem next_eq (mode : SignatureMode) (text : String) (c : Cursor) : ∀ pos, c = .atOffset (bytes text) pos →
    next mode text pos =
      .ok ((Signature.next mode c).1.map .ofSignature, (Signature.next mode c).2.offset) := by
  fun_induction Signature.next mode c with
  | case1 c hrest =>
    rintro pos rfl
    exact next_of_nil mode hrest
  | case2 c b r hrest paren hparen behind hclose =>
    rintro pos rfl
    obtain ⟨j, k, hj, hk, hb, hid, hjk, hnext⟩ := next_of_cons mode hrest
    have hp : paren = .atOffset (bytes text) k := hk
    rw [hp, Cursor.skip_atOffset] at hclose
    rw [hp, Cursor.here?_atOffset] at hparen
    obtain ⟨e, rfl, he⟩ := SignatureMode.close?_eq_some.1 hclose
    have hlt := he.lt
    -- the first byte of the name and the closing parenthesis are characters of their own
    have hstart := (isValid_of_lt hb (isIdentifier_lt hid)).1
    have hstop := (isValid_of_lt he.last (by decide)).2
    rw [show e - 1 + 1 = e by omega] at hstop
    obtain ⟨raw, hslice, hraw⟩ := slice_eq (show j ≤ e by omega) hstart hstop
    have htext : Signature.rawText? ⟨.atOffset (bytes text) j, .atOffset (bytes text) e⟩ = some raw := by
      rw [Signature.rawText?, Signature.raw, Signature.start_atOffset, Signature.stop_atOffset, Cursor.rest_atOffset,
        ← hraw, text?_bytes]
    rw [hnext, if_pos hparen, hclose, Option.map_some, Cursor.offset_atOffset, hj, Option.map_some,
      Candidate.ofSignature, htext, Signature.start_atOffset, Signature.stop_atOffset]
    dsimp only
    rw [hslice]
    rfl
  | case3 c b r hrest paren hparen hclose ih =>
    rintro pos rfl
    obtain ⟨j, k, hj, hk, -, -, -, hnext⟩ := next_of_cons mode hrest
    have hp : paren = .atOffset (bytes text) k := hk
    rw [hp, Cursor.skip_atOffset] at hclose ih
    rw [hp, Cursor.here?_atOffset] at hparen
    rw [hp, hnext, if_pos hparen, hclose, Cursor.skip_atOffset]
    exact ih (k + 1) rfl
  | case4 c b r hrest paren hparen ih =>
    rintro pos rfl
    obtain ⟨j, k, hj, hk, -, -, -, hnext⟩ := next_of_cons mode hrest
    have hp : paren = .atOffset (bytes text) k := hk
    rw [hp, Cursor.here?_atOffset] at hparen
    rw [hnext, if_neg hparen, ih k hp]

/-! ## Reports -/

/-- The name in the text of a signature. -/
def nameOf (raw : String) : Except Fault String :=
  match (bytes raw).findIdx? (· == Byte.leftParen) with
  | some i => slice raw 0 i
  | none => return raw

def countLines (bs : List UInt8) (brace close : Nat) : Except Fault Nat :=
  if close ≤ linesFrom bs brace then return 0
  else return (← range bs (linesFrom bs brace) close).count Byte.newline

def report (bs : List UInt8) (maxLines : UInt64) (x : Candidate) (brace close : Nat) :
    Except Fault FunctionReport := do
  let lineCount ← countLines bs brace close
  let closeLine := (LineIndex.ofBytes bs).lineOf close
  return {
    name := ← nameOf x.raw
    signatureLine := (LineIndex.ofBytes bs).lineOf x.start
    closeLine
    anchorLine := ← lineBelow closeLine
    lineCount := lineCount.toUInt64
    severity := .classify lineCount.toUInt64 maxLines }

theorem findIdx?_eq_length_takeWhile {l : List UInt8} {a : UInt8} (h : a ∈ l) :
    l.findIdx? (· == a) = some (l.takeWhile (· != a)).length := by
  induction l with
  | nil => cases h
  | cons b l ih =>
    by_cases hb : b = a
    · subst hb
      simp [List.findIdx?_cons]
    · have hl : a ∈ l := (List.mem_cons.1 h).resolve_left fun heq => hb heq.symm
      simp [List.findIdx?_cons, hb, ih hl]

theorem nameOf_eq {x : Signature} {mode : SignatureMode} {bs : List UInt8} {raw : String} {o : Nat}
    (h : x.FoundAt mode bs o) (hraw : bytes raw = x.raw) : nameOf raw = .ok x.name := by
  have hlt := h.start_lt
  have hlt' := h.ends.lt
  have hparen : x.raw[o - x.start]? = some Byte.leftParen := by
    rw [h.raw_eq, List.getElem?_take_of_lt (by omega), List.getElem?_drop, Nat.add_sub_of_le (Nat.le_of_lt hlt),
      h.candidate.1]
  have hlength : x.nameBytes.length = o - x.start := by
    rw [h.nameBytes_eq, List.length_take, List.length_drop]
    have := (List.getElem?_eq_some_iff.1 h.candidate.1).1
    omega
  have hfind : (bytes raw).findIdx? (· == Byte.leftParen) = some (o - x.start) := by
    rw [hraw, findIdx?_eq_length_takeWhile (List.mem_of_getElem? hparen), ← Signature.nameBytes, hlength]
  have hstop : String.Pos.Raw.IsValid raw ⟨o - x.start⟩ := (isValid_of_lt (hraw ▸ hparen) (by decide)).1
  obtain ⟨t, ht, hbytes⟩ := slice_eq (Nat.zero_le _) String.Pos.Raw.isValid_zero hstop
  have hname : t = x.name := by
    apply bytes_injective
    rw [hbytes, h.bytes_name, hraw, h.raw_eq, List.drop_zero, Nat.sub_zero, List.take_take, Nat.min_eq_left (by omega)]
  rw [nameOf, hfind]
  dsimp only
  rw [ht, hname]

theorem countLines_eq {bs : List UInt8} {brace close : Nat} (h : close ≤ bs.length) :
    countLines bs brace close = .ok (countBodyLines (.atOffset bs brace) close) := by
  have hcount : countBodyLines (.atOffset bs brace) close =
      ((bs.drop (linesFrom bs brace)).take (close - linesFrom bs brace)).count Byte.newline := by
    simp only [countBodyLines, Cursor.skip_atOffset, Cursor.here?_atOffset, Cursor.rest_atOffset,
      Cursor.offset_atOffset, linesFrom]
  rw [countLines, hcount]
  split
  next hle =>
    rw [Nat.sub_eq_zero_of_le hle]
    rfl
  next hlt =>
    rw [range, if_pos ⟨by omega, h⟩]
    rfl

theorem report_eq {text : String} {options : ScanOptions} {y : Body} (h : (textLines (bytes text)).length < 2 ^ 32 - 1)
    (hy : y ∈ bodies text options) :
    report (bytes text) options.maxLines (.ofSignature y.signature) y.brace.offset y.close =
      .ok (y.report (.ofBytes (bytes text)) options.maxLines) := by
  obtain ⟨hfound, o, ho⟩ := mem_bodies hy
  obtain ⟨raw, hraw, hbytes⟩ := ho.bytes_rawText?
  rw [← ho.raw_eq] at hbytes
  have hline : ((LineIndex.ofBytes (bytes text)).lineOf y.close).toNat + 1 < 2 ^ 32 := by
    have hle : ((LineIndex.ofBytes (bytes text)).lineOf y.close).toNat ≤ _ := (accounts_report h hy).closeLine_le
    omega
  rw [report, countLines_eq (Nat.le_of_lt hfound.close_lt), ok_bind, Candidate.ofSignature, hraw]
  dsimp only [Option.getD_some]
  rw [nameOf_eq ho hbytes, ok_bind, lineBelow, if_pos hline, ok_bind, ← hfound.brace_eq]
  rfl

/-! ## Scanning -/

/-- The reports on the candidates from an offset on, and the number of questions put by then. -/
def scanFrom (text : String) (options : ScanOptions) (interrupt : Interrupt) (pos asked : Nat) :
    Except Fault (Option (List FunctionReport) × Nat) := do
  match ← next options.signatureMode text pos with
  | (none, _) => return (some [], asked)
  | (some x, behind) =>
    if _h : pos < behind ∧ behind ≤ (bytes text).length then
      if interrupt.stop asked then return (none, asked + 1)
      else
        match options.bracePlacement.locate? (.atOffset (bytes text) x.stop) with
        | none => scanFrom text options interrupt behind (asked + 1)
        | some brace =>
          match ← closeBrace interrupt (bytes text) (asked + 1) 1 .plain (brace.offset + 1) with
          | (.interrupted, asked) => return (none, asked)
          | (.unbalanced, asked) => scanFrom text options interrupt behind asked
          | (.closed close, asked) =>
            let r ← report (bytes text) options.maxLines x brace.offset close
            let (rest, asked) ← scanFrom text options interrupt behind asked
            return (rest.map (r :: ·), asked)
    else .error .stuck
termination_by (bytes text).length - pos

def scanUntil (text : String) (options : ScanOptions) (interrupt : Interrupt) :
    Except Fault (Option (List FunctionReport) × Nat) :=
  scanFrom text options interrupt 0 0

theorem behind_of_next {mode : SignatureMode} {c behind : Cursor} {x : Signature}
    (h : Signature.next mode c = (some x, behind)) : x.behind = behind := by
  fun_induction Signature.next mode c with
  | case1 => simp at h
  | case2 =>
    simp only [Prod.mk.injEq, Option.some.injEq] at h
    obtain ⟨rfl, rfl⟩ := h
    rfl
  | case3 _ _ _ _ _ _ _ ih => exact ih h
  | case4 _ _ _ _ _ _ ih => exact ih h

theorem closing_of_search {interrupt : Interrupt} {asked asked' p : Nat} {c : Cursor}
    (h : BraceMatch.search interrupt asked c = (.closed p, asked')) :
    Brackets.braces.closing 0 (LexState.plain.code (c.skip 1)) = some p := by
  rw [BraceMatch.search_eq] at h
  split at h
  · simp at h
  · cases hc : Brackets.braces.closing 0 (LexState.plain.code (c.skip 1)) with
    | none => simp [hc, BraceMatch.ofOffset?] at h
    | some q => simpa [hc, BraceMatch.ofOffset?] using congrArg Prod.fst h

theorem scanFrom_eq {text : String} (h : (textLines (bytes text)).length < 2 ^ 32 - 1) (options : ScanOptions)
    (interrupt : Interrupt) (c : Cursor) : ∀ pos asked, c = .atOffset (bytes text) pos →
      (∀ x ∈ Signature.allFrom options.signatureMode c, x ∈ signatures options.signatureMode text) →
      scanFrom text options interrupt pos asked =
        let (survey, asked') := Survey.ofSignatures options.bracePlacement interrupt asked
          (Signature.allFrom options.signatureMode c)
        .ok (survey.map fun s => s.bodies.map (Body.report (.ofBytes (bytes text)) options.maxLines), asked') := by
  fun_induction Signature.allFrom options.signatureMode c with
  | case1 c d hnext =>
    rintro pos asked rfl -
    rw [scanFrom, next_eq _ text _ pos rfl, hnext]
    rfl
  | case2 c x behind hnext ih =>
    rintro pos asked rfl hmem
    have hx := hmem x List.mem_cons_self
    obtain ⟨o, ho⟩ := exists_foundAt_of_mem_signatures hx
    obtain rfl := behind_of_next hnext
    have hlast := (List.getElem?_eq_some_iff.1 ho.ends.last).1
    have hmoves : pos < x.stop ∧ x.stop ≤ (bytes text).length := by
      have hlt := @Signature.length_rest_next options.signatureMode (.atOffset (bytes text) pos) x (by rw [hnext])
      rw [hnext] at hlt
      dsimp only at hlt
      rw [ho.behind_eq, Cursor.rest_atOffset, Cursor.rest_atOffset, List.length_drop, List.length_drop] at hlt
      omega
    have ih (asked : Nat) := ih x.stop asked ho.behind_eq fun y hy => hmem y (List.mem_cons_of_mem x hy)
    rw [scanFrom, next_eq _ text _ pos rfl, hnext, ok_bind]
    dsimp only [Option.map_some, Candidate.ofSignature]
    rw [← Signature.stop, dif_pos hmoves, Survey.ofSignatures]
    by_cases hstop : interrupt.stop asked
    · rw [if_pos hstop, if_pos hstop]
      rfl
    rw [if_neg hstop, if_neg hstop, ← ho.behind_eq]
    cases hl : options.bracePlacement.locate? x.behind with
    | none => exact ih (asked + 1)
    | some brace =>
      have hplace : brace = .atOffset (bytes text) brace.offset := by
        obtain ⟨j, rfl, -⟩ := BracePlacement.locate?_atOffset (ho.behind_eq ▸ hl)
        rw [Cursor.offset_atOffset]
      have hinside : brace.skip 1 = .atOffset (bytes text) (brace.offset + 1) := by
        rw [hplace, Cursor.skip_atOffset, Cursor.offset_atOffset]
      have hclose : closeBrace interrupt (bytes text) (asked + 1) 1 .plain (brace.offset + 1) =
          .ok (BraceMatch.search interrupt (asked + 1) brace) :=
        closeBrace_eq interrupt (bytes text) (asked + 1) 0 .plain (brace.skip 1) (brace.offset + 1) hinside
      dsimp only
      rw [hclose, ok_bind]
      cases hs : BraceMatch.search interrupt (asked + 1) brace with
      | mk outcome asked' =>
      cases outcome with
      | interrupted => rfl
      | unbalanced =>
        dsimp only
        rw [ih asked']
        rcases Survey.ofSignatures options.bracePlacement interrupt asked' _ with ⟨_ | _, _⟩ <;> rfl
      | closed close =>
        have hbody : (⟨x, brace, close⟩ : Body) ∈ bodies text options := by
          refine List.mem_filterMap.2 ⟨x, hx, ?_⟩
          rw [Body.of?, hl, Option.bind_some, closing_of_search hs]
          rfl
        have hreport := report_eq h hbody
        rw [Candidate.ofSignature] at hreport
        dsimp only at hreport ⊢
        rw [hreport, ok_bind, ih asked']
        rcases Survey.ofSignatures options.bracePlacement interrupt asked' _ with ⟨_ | _, _⟩ <;> rfl

/-! ## Main theorem -/

/-- No operation of a scan is ever outside its domain: with all of them checked, the scan comes to
what it comes to without. -/
theorem scanUntil_without_fault {text : String} (h : (textLines (bytes text)).length < 2 ^ 32 - 1)
    (options : ScanOptions) (interrupt : Interrupt) :
    scanUntil text options interrupt = .ok (BodyLength.scanUntil text options interrupt) := by
  rw [scanUntil, scanFrom_eq h options interrupt _ 0 0 rfl fun x hx => hx]
  rfl

/-- The escape in the literal reads half a character. -/
theorem scan_of_split_character_without_fault :
    (textLines (bytes "f(\"\\é)\")\n\x7b\n\x7d")).length < 2 ^ 32 - 1 ∧
      scanUntil "f(\"\\é)\")\n\x7b\n\x7d" { signatureMode := .literalAware } .never =
        .ok (some [⟨"f", 1, 3, 4, 0, .neutral⟩], 3) := by
  have h : (textLines (bytes "f(\"\\é)\")\n\x7b\n\x7d")).length < 2 ^ 32 - 1 := by decide
  have hscan : BodyLength.scanUntil "f(\"\\é)\")\n\x7b\n\x7d" { signatureMode := .literalAware } .never =
      (some [⟨"f", 1, 3, 4, 0, .neutral⟩], 3) := by decide +kernel
  exact ⟨h, (scanUntil_without_fault h _ _).trans (congrArg _ hscan)⟩

end Checked

end BodyLength
