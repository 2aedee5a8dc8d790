import BodyLength.Proofs.Brackets.Surroundings
import BodyLength.Proofs.Scan.Bodies
import BodyLength.Proofs.Scan.BraceGaps
import BodyLength.Proofs.Scan.Signatures
import BodyLength.Proofs.Text.Lines
/-!
# Where functions stand

The signatures and bodies of a text by their offsets: a body opens behind its signature and closes
behind that (`Body.FoundIn`), and what a report says of its lines only counts newlines
(`lineOf_eq` and `countBodyLines_atOffset`).
-/

namespace BodyLength

/-! ## Signatures -/

theorem greedy_signatures (mode : SignatureMode) (text : String) :
    Greedy mode (bytes text) 0 (signatures mode text) :=
  Signature.greedy_allFrom mode (bytes text) _ 0 (.inl (.inl rfl)) rfl

theorem exists_foundAt_of_mem_signatures {mode : SignatureMode} {text : String} {x : Signature}
    (h : x ∈ signatures mode text) : ∃ o, x.FoundAt mode (bytes text) o :=
  ((greedy_signatures mode text).exists_foundAt h).2

namespace Signature.FoundAt

variable {x : Signature} {mode : SignatureMode} {bs : List UInt8} {o : Nat}

theorem start_lt_stop (h : x.FoundAt mode bs o) : x.start < x.stop :=
  Nat.lt_trans h.start_lt (Nat.lt_of_succ_lt h.ends.lt)

theorem identifierAt_start (h : x.FoundAt mode bs o) : identifierAt bs x.start :=
  h.identifier x.start (Nat.le_refl _) h.start_lt

theorem start_lt_length (h : x.FoundAt mode bs o) : x.start < bs.length := by
  obtain ⟨b, hb, -⟩ := exists_of_identifierAt h.identifierAt_start
  exact (List.getElem?_eq_some_iff.1 hb).1

theorem leftParen_mem (h : x.FoundAt mode bs o) : Byte.leftParen ∈ x.first.rest := by
  have hlt := h.start_lt
  apply List.mem_of_getElem? (i := o - x.start)
  rw [h.first_eq, Cursor.rest_atOffset, List.getElem?_drop, Nat.add_sub_of_le (Nat.le_of_lt hlt), h.candidate.1]

/-- The name is the identifier in front of the parameter list. -/
theorem nameBytes_eq_takeWhile (h : x.FoundAt mode bs o) :
    x.nameBytes = x.first.rest.takeWhile Byte.isIdentifier := by
  rw [h.nameBytes_eq, h.first_eq, Cursor.rest_atOffset, takeWhile_eq_take (n := o - x.start)]
  · intro i hi
    rw [List.getElem?_drop]
    exact h.identifier (x.start + i) (Nat.le_add_right _ _) (by omega)
  · have hlt := h.start_lt
    rw [List.getElem?_drop, Nat.add_sub_of_le (Nat.le_of_lt hlt), h.candidate.1]
    rfl

end Signature.FoundAt

theorem signatures_pairwise (mode : SignatureMode) (text : String) :
    (signatures mode text).Pairwise (·.stop ≤ ·.start) :=
  (greedy_signatures mode text).pairwise

/-! ## Opening braces -/

namespace BracePlacement

variable {placement : BracePlacement} {bs : List UInt8} {i : Nat} {c : Cursor}

theorem locate?_nextLine (h : nextLine.locate? (.atOffset bs i) = some c) :
    bs[i]? = some Byte.newline ∧ bs[i + 1]? = some Byte.leftBrace ∧ c = .atOffset bs (i + 1) := by
  simp only [locate?, Cursor.here?_atOffset, Cursor.skip_atOffset, Option.ite_none_right_eq_some,
    Option.some.injEq] at h
  obtain ⟨⟨hn, hb⟩, rfl⟩ := h
  exact ⟨hn, hb, rfl⟩

theorem locate?_atOffset (h : placement.locate? (.atOffset bs i) = some c) :
    ∃ j, c = .atOffset bs j ∧ i ≤ j ∧ bs[j]? = some Byte.leftBrace := by
  obtain ⟨j, hc, hj⟩ := locate?_eq_some_iff.1 h
  exact ⟨j, hc, hj.le, hj.brace⟩

end BracePlacement

/-! ## Bodies -/

namespace Body

/-- The body `x` stands in the text: its opening brace behind its signature, and its closing brace
behind that. -/
structure FoundIn (x : Body) (bs : List UInt8) : Prop where
  brace_eq : x.brace = .atOffset bs x.brace.offset
  stop_le : x.signature.stop ≤ x.brace.offset
  brace_at : bs[x.brace.offset]? = some Byte.leftBrace
  brace_lt : x.brace.offset < x.close
  close_at : bs[x.close]? = some Byte.rightBrace

variable {placement : BracePlacement} {x : Signature} {y : Body}

theorem of?_eq_some : of? placement x = some y ↔ y.signature = x ∧ placement.locate? x.behind = some y.brace ∧
    Brackets.braces.closing 0 (LexState.plain.code (y.brace.skip 1)) = some y.close := by
  obtain ⟨z, brace, close⟩ := y
  simp only [of?, Option.bind_eq_some_iff, Option.map_eq_some_iff, mk.injEq]
  constructor
  · rintro ⟨c, hc, p, hp, rfl, rfl, rfl⟩
    exact ⟨rfl, hc, hp⟩
  · rintro ⟨rfl, hc, hp⟩
    exact ⟨brace, hc, close, hp, rfl, rfl, rfl⟩

/-- Where a body closes is counted from its opening brace on. -/
theorem of?_start (placement : BracePlacement) (x : Signature) : of? placement x =
    (placement.locate? x.behind).bind fun brace =>
      (Brackets.braces.closing 0 (LexState.plain.code (.start (brace.skip 1).rest))).map fun p =>
        ⟨x, brace, p + (brace.offset + 1)⟩ := by
  rw [of?]
  congr 1
  funext brace
  have hclosing := SignatureMode.literalAware.closing_start .braces (brace.skip 1)
  simp only [SignatureMode.counted, Cursor.offset_skip] at hclosing
  rw [hclosing, Option.map_map]
  rfl

theorem foundIn_of_of? {mode : SignatureMode} {bs : List UInt8} {o : Nat} (hx : x.FoundAt mode bs o)
    (h : of? placement x = some y) : y.FoundIn bs := by
  obtain ⟨rfl, hbrace, hclose⟩ := of?_eq_some.1 h
  rw [hx.behind_eq] at hbrace
  obtain ⟨j, hj, hle, hb⟩ := BracePlacement.locate?_atOffset hbrace
  have hoff : y.brace.offset = j := by rw [hj, Cursor.offset_atOffset]
  rw [hj, Cursor.skip_atOffset] at hclose
  obtain ⟨hlow, hright⟩ := SignatureMode.literalAware.place_of_closing hclose
  refine ⟨by rw [hoff, hj], by rwa [hoff], by rwa [hoff], ?_, hright⟩
  rw [hoff]
  exact hlow

end Body

variable {text : String} {options : ScanOptions}

theorem mem_bodies {y : Body} (h : y ∈ bodies text options) : y.FoundIn (bytes text) ∧
    ∃ o, y.signature.FoundAt options.signatureMode (bytes text) o := by
  obtain ⟨x, hx, hy⟩ := List.mem_filterMap.1 h
  obtain ⟨o, ho⟩ := exists_foundAt_of_mem_signatures hx
  obtain ⟨rfl, -⟩ := Body.of?_eq_some.1 hy
  exact ⟨Body.foundIn_of_of? ho hy, o, ho⟩

theorem bodies_pairwise (text : String) (options : ScanOptions) :
    (bodies text options).Pairwise fun x y => x.signature.stop ≤ y.signature.start := by
  rw [bodies, List.pairwise_filterMap]
  refine (signatures_pairwise options.signatureMode text).imp ?_
  intro x y hxy b hb b' hb'
  rwa [(Body.of?_eq_some.1 hb).1, (Body.of?_eq_some.1 hb').1]

/-! ## Line counts -/

/-- Where the lines of a body are counted from, if it opens at offset `o`. -/
def linesFrom (bs : List UInt8) (o : Nat) : Nat := o + if bs[o + 1]? = some Byte.carriageReturn then 3 else 2

/-- The lines of a body are the newlines behind its first bytes, less those behind its end. -/
theorem countBodyLines_atOffset (bs : List UInt8) (o close : Nat) : countBodyLines (.atOffset bs o) close =
    (bs.drop (linesFrom bs o)).count Byte.newline - (bs.drop close).count Byte.newline := by
  simp only [countBodyLines, Cursor.skip_atOffset, Cursor.here?_atOffset, Cursor.rest_atOffset,
    Cursor.offset_atOffset, linesFrom]
  generalize o + (if bs[o + 1]? = some Byte.carriageReturn then 3 else 2) = n
  rcases Nat.le_total n close with h | h
  · have hdrop : (bs.drop n).drop (close - n) = bs.drop close := by
      rw [List.drop_drop, Nat.add_sub_of_le h]
    rw [← hdrop]
    conv_rhs => rw [← List.take_append_drop (close - n) (bs.drop n)]
    rw [List.count_append, List.take_append_drop, Nat.add_sub_cancel]
  · -- the body is too short to have a line
    have hle : (bs.drop n).count Byte.newline ≤ (bs.drop close).count Byte.newline :=
      (List.drop_sublist_drop_left bs h).count_le _
    rw [Nat.sub_eq_zero_of_le h, Nat.sub_eq_zero_of_le hle]
    rfl

namespace Body.FoundIn

variable {y : Body} {bs : List UInt8}

theorem lineCount_eq (h : y.FoundIn bs) : y.lineCount =
    (bs.drop (linesFrom bs y.brace.offset)).count Byte.newline - (bs.drop y.close).count Byte.newline := by
  rw [lineCount, ← countBodyLines_atOffset, ← h.brace_eq]

theorem close_lt (h : y.FoundIn bs) : y.close < bs.length := (List.getElem?_eq_some_iff.1 h.close_at).1

theorem linesFrom_le (h : y.FoundIn bs) : linesFrom bs y.brace.offset ≤ bs.length := by
  have hlt := h.brace_lt
  have hclose := h.close_lt
  rw [linesFrom]
  split
  next hcr =>
    -- the closing brace is not the carriage return
    have hne : y.close ≠ y.brace.offset + 1 := by
      intro heq
      have := h.close_at
      rw [heq, hcr] at this
      cases this
    omega
  · omega

end Body.FoundIn

end BodyLength
