import BodyLength.Proofs.Brackets.Balance
import BodyLength.Proofs.Text.Utf8
import BodyLength.Scan.Basic
/-!
# Signatures are found greedily

A candidate is a parenthesis directly behind an identifier. The scanner goes through a text in
jumps, over identifiers, over whole signatures and back into lists that do not close. It still
finds the leftmost candidate that closes, then the leftmost one behind that signature, and so
on: `Greedy` says so without the jumps. What makes it so is that the scanner never goes on in
the middle of an identifier (`Fresh`).
-/

namespace BodyLength

/-- Whether a byte of an identifier stands at offset `i`. -/
def identifierAt (bs : List UInt8) (i : Nat) : Bool := bs[i]?.any Byte.isIdentifier

/-- A parenthesis directly behind an identifier. -/
def IsCandidate (bs : List UInt8) (o : Nat) : Prop :=
  bs[o]? = some Byte.leftParen ∧ 0 < o ∧ identifierAt bs (o - 1)

/-- The parameter list that opens at offset `o` ends just before offset `e`. -/
def SignatureMode.ListEnds (mode : SignatureMode) (bs : List UInt8) (o e : Nat) : Prop :=
  ∃ p, e = p + 1 ∧ Brackets.parens.ClosesAt 0 (mode.counted .plain (.atOffset bs (o + 1))) p

/-- No candidate from offset `i` up to offset `j` has a parameter list. -/
def SignatureMode.NoneEnds (mode : SignatureMode) (bs : List UInt8) (i j : Nat) : Prop :=
  ∀ o e, i ≤ o → o < j → IsCandidate bs o → ¬ mode.ListEnds bs o e

/-- The signature with the candidate at offset `o`. -/
structure Signature.FoundAt (x : Signature) (mode : SignatureMode) (bs : List UInt8) (o : Nat) : Prop where
  first_eq : x.first = .atOffset bs x.start
  behind_eq : x.behind = .atOffset bs x.stop
  candidate : IsCandidate bs o
  ends : mode.ListEnds bs o x.stop
  start_lt : x.start < o
  identifier : ∀ i, x.start ≤ i → i < o → identifierAt bs i
  maximal : x.start = 0 ∨ identifierAt bs (x.start - 1) = false

/-- The signatures from offset `i` on, each that of the leftmost candidate with a parameter list
behind the one before. -/
inductive Greedy (mode : SignatureMode) (bs : List UInt8) : Nat → List Signature → Prop
  | done {i : Nat} : (∀ j, mode.NoneEnds bs i j) → Greedy mode bs i []
  | next {i o : Nat} {x : Signature} {l : List Signature} : i ≤ x.start → x.FoundAt mode bs o →
      mode.NoneEnds bs i o → Greedy mode bs x.stop l → Greedy mode bs i (x :: l)

/-! ## Parameter lists -/

namespace SignatureMode

variable {mode : SignatureMode} {bs : List UInt8} {o e : Nat}

theorem ListEnds.unique {e' : Nat} (h : mode.ListEnds bs o e) (h' : mode.ListEnds bs o e') : e = e' := by
  obtain ⟨p, rfl, h⟩ := h
  obtain ⟨p', rfl, h'⟩ := h'
  rw [h.unique h']

theorem ListEnds.closing (h : mode.ListEnds bs o e) : ∃ p, e = p + 1 ∧
    Brackets.parens.closing 0 (mode.counted .plain (.atOffset bs (o + 1))) = some p := by
  obtain ⟨p, rfl, h⟩ := h
  exact ⟨p, rfl, (Brackets.closing_eq_some (mode.counted_ascending _ _).1).2 h⟩

theorem ListEnds.lt (h : mode.ListEnds bs o e) : o + 1 < e := by
  obtain ⟨p, rfl, hp⟩ := h.closing
  exact Nat.lt_succ_of_le (mode.place_of_closing hp).1

theorem ListEnds.last (h : mode.ListEnds bs o e) : bs[e - 1]? = some Byte.rightParen := by
  obtain ⟨p, rfl, hp⟩ := h.closing
  exact (mode.place_of_closing hp).2

theorem close?_eq_some {c : Cursor} :
    mode.close? (.atOffset bs (o + 1)) = some c ↔ ∃ e, c = .atOffset bs e ∧ mode.ListEnds bs o e := by
  rw [close?_eq, Option.map_eq_some_iff]
  constructor
  · rintro ⟨p, hp, rfl⟩
    have hle := (mode.place_of_closing hp).1
    refine ⟨p + 1, ?_, p, rfl, (Brackets.closing_eq_some (mode.counted_ascending _ _).1).1 hp⟩
    rw [Cursor.offset_atOffset, Cursor.skip_atOffset]
    congr 1
    omega
  · rintro ⟨e, rfl, h⟩
    have hlt := h.lt
    obtain ⟨p, rfl, hp⟩ := h.closing
    refine ⟨p, hp, ?_⟩
    rw [Cursor.offset_atOffset, Cursor.skip_atOffset]
    congr 1
    omega

end SignatureMode

/-! ## Where the search goes on -/

/-- Offset `i` is not inside an identifier, nor just behind one whose list would be passed over. -/
def Fresh (bs : List UInt8) (i : Nat) : Prop :=
  (i = 0 ∨ identifierAt bs (i - 1) = false) ∨ identifierAt bs i = false ∧ bs[i]? ≠ some Byte.leftParen

theorem identifierAt_of_eq {bs : List UInt8} {i : Nat} {b : UInt8} (h : bs[i]? = some b) :
    identifierAt bs i = Byte.isIdentifier b := by
  rw [identifierAt, h, Option.any_some]

/-- Between offset `i` and the end of the first identifier from there on is no candidate. -/
theorem not_isCandidate {bs : List UInt8} {i j k o : Nat} (hi : Fresh bs i)
    (hj : ∀ m, i ≤ m → m < j → identifierAt bs m = false) (hk : ∀ m, j ≤ m → m < k → identifierAt bs m)
    (ho : i ≤ o) (hok : o < k) : ¬ IsCandidate bs o := by
  rintro ⟨hp, hpos, hid⟩
  rcases Nat.lt_or_eq_of_le ho with hlt | rfl
  · by_cases hoj : o ≤ j
    · rw [hj (o - 1) (by omega) (by omega)] at hid
      cases hid
    · have := hk o (by omega) hok
      rw [identifierAt_of_eq hp] at this
      cases this
  · rcases hi with (rfl | h) | ⟨-, h⟩
    · omega
    · rw [h] at hid
      cases hid
    · exact h hp

/-- An identifier that is found from offset `i` on has not begun before. -/
theorem start_maximal {bs : List UInt8} {i j : Nat} (hi : Fresh bs i)
    (hj : ∀ m, i ≤ m → m < j → identifierAt bs m = false) (hij : i ≤ j) (h : identifierAt bs j) :
    j = 0 ∨ identifierAt bs (j - 1) = false := by
  rcases Nat.lt_or_eq_of_le hij with hlt | rfl
  · exact .inr (hj (j - 1) (by omega) (by omega))
  · rcases hi with hi | ⟨hi, -⟩
    · exact hi
    · rw [hi] at h
      cases h

/-- What the search for the next signature from offset `i` on comes to. -/
inductive NextFrom (mode : SignatureMode) (bs : List UInt8) (i : Nat) : Option Signature × Cursor → Prop
  | none {c : Cursor} : (∀ j, mode.NoneEnds bs i j) → NextFrom mode bs i (none, c)
  | some {x : Signature} {o : Nat} : i ≤ x.start → x.FoundAt mode bs o → mode.NoneEnds bs i o →
      NextFrom mode bs i (some x, x.behind)

theorem NextFrom.of_le {mode : SignatureMode} {bs : List UInt8} {i j : Nat} {r : Option Signature × Cursor}
    (h : NextFrom mode bs j r) (hij : i ≤ j) (hn : mode.NoneEnds bs i j) : NextFrom mode bs i r := by
  have step {k : Nat} (hk : mode.NoneEnds bs j k) : mode.NoneEnds bs i k := by
    intro o e hio hok
    by_cases hoj : o < j
    · exact hn o e hio hoj
    · exact hk o e (Nat.le_of_not_lt hoj) hok
  cases h with
  | none h => exact .none fun k => step (h k)
  | some hx hf h => exact .some (Nat.le_trans hij hx) hf (step h)

namespace Signature

@[simp] theorem start_atOffset (bs : List UInt8) (j : Nat) (c : Cursor) : start ⟨.atOffset bs j, c⟩ = j :=
  Cursor.offset_atOffset bs j

@[simp] theorem stop_atOffset (bs : List UInt8) (e : Nat) (c : Cursor) : stop ⟨c, .atOffset bs e⟩ = e :=
  Cursor.offset_atOffset bs e

/-- The first identifier from an offset on, and the offset behind it. -/
theorem identifierFrom_atOffset (bs : List UInt8) (i : Nat) : ∃ j k,
    identifierFrom (.atOffset bs i) = .atOffset bs j ∧
    (identifierFrom (.atOffset bs i)).skipWhile Byte.isIdentifier = .atOffset bs k ∧ i ≤ j ∧ j ≤ k ∧
    (∀ m, i ≤ m → m < j → identifierAt bs m = false) ∧ (∀ m, j ≤ m → m < k → identifierAt bs m) ∧
    (∀ b, bs[j]? = some b → Byte.isIdentifier b) ∧ identifierAt bs k = false := by
  obtain ⟨j, hj, hij, hbefore, hat⟩ := Cursor.skipWhile_atOffset bs i (!Byte.isIdentifier ·)
  obtain ⟨k, hk, hjk, hid, hbehind⟩ := Cursor.skipWhile_atOffset bs j Byte.isIdentifier
  refine ⟨j, k, hj, by rw [identifierFrom, hj, hk], hij, hjk, ?_, hid, ?_, ?_⟩
  · intro m hm hmj
    have := hbefore m hm hmj
    cases hb : bs[m]? with
    | none => simp [hb] at this
    | some b => simpa [identifierAt, hb] using this
  · intro b hb
    simpa [hb] using hat
  · cases hb : bs[k]? with
    | none => simp [identifierAt, hb]
    | some b => simpa [identifierAt, hb] using hbehind

theorem next_atOffset (mode : SignatureMode) (bs : List UInt8) (c : Cursor) :
    ∀ i, Fresh bs i → c = .atOffset bs i → NextFrom mode bs i (next mode c) := by
  fun_induction next mode c with
  | case1 c hrest =>
    -- no identifier is left, and none ends at `i` either
    rintro i hi rfl
    obtain ⟨j, k, hj, -, -, hjk, hno, hid, -, -⟩ := identifierFrom_atOffset bs i
    rw [hj, Cursor.rest_atOffset, List.drop_eq_nil_iff] at hrest
    refine .none fun m o e ho _ hcand => ?_
    by_cases hok : o < k
    · exact absurd hcand (not_isCandidate hi hno hid ho hok)
    · have := hcand.1
      rw [List.getElem?_eq_none (by omega)] at this
      cases this
  | case2 c b r hrest paren hparen behind hclose =>
    rintro i hi rfl
    obtain ⟨j, k, hj, hk, hij, hjk, hno, hid, hat, hbehind⟩ := identifierFrom_atOffset bs i
    have hp : paren = .atOffset bs k := hk
    rw [hp, Cursor.here?_atOffset] at hparen
    rw [hp, Cursor.skip_atOffset] at hclose
    obtain ⟨e, rfl, he⟩ := SignatureMode.close?_eq_some.1 hclose
    have hb : bs[j]? = some b := by rw [← List.head?_drop, ← Cursor.rest_atOffset, ← hj, hrest, List.head?_cons]
    have hjk' : j < k := by
      refine Nat.lt_of_le_of_ne hjk ?_
      rintro rfl
      rw [identifierAt_of_eq hb, hat b hb] at hbehind
      cases hbehind
    have hfound : FoundAt ⟨.atOffset bs j, .atOffset bs e⟩ mode bs k :=
      { first_eq := by rw [start_atOffset]
        behind_eq := by rw [stop_atOffset]
        candidate := ⟨hparen, by omega, hid (k - 1) (by omega) (by omega)⟩
        ends := by rwa [stop_atOffset]
        start_lt := by rwa [start_atOffset]
        identifier := by rwa [start_atOffset]
        maximal := by
          rw [start_atOffset]
          exact start_maximal hi hno hij (by rw [identifierAt_of_eq hb, hat b hb]) }
    rw [hj]
    exact .some (by rwa [start_atOffset]) hfound fun o e ho hok hcand _ => not_isCandidate hi hno hid ho hok hcand
  | case3 c b r hrest paren hparen hclose ih =>
    -- the list does not end, so the search goes on inside
    rintro i hi rfl
    obtain ⟨j, k, hj, hk, hij, hjk, hno, hid, hat, hbehind⟩ := identifierFrom_atOffset bs i
    have hp : paren = .atOffset bs k := hk
    rw [hp, Cursor.here?_atOffset] at hparen
    rw [hp, Cursor.skip_atOffset] at hclose ih ⊢
    refine (ih (k + 1) (.inl (.inr hbehind)) rfl).of_le (by omega) fun o e ho hok hcand hends => ?_
    rcases Nat.lt_or_eq_of_le (Nat.le_of_lt_succ hok) with hlt | rfl
    · exact not_isCandidate hi hno hid ho hlt hcand
    · rw [SignatureMode.close?_eq_some.2 ⟨e, rfl, hends⟩] at hclose
      cases hclose
  | case4 c b r hrest paren hparen ih =>
    -- what stands behind the identifier is no parenthesis
    rintro i hi rfl
    obtain ⟨j, k, hj, hk, hij, hjk, hno, hid, hat, hbehind⟩ := identifierFrom_atOffset bs i
    have hp : paren = .atOffset bs k := hk
    rw [hp] at hparen ih ⊢
    rw [Cursor.here?_atOffset] at hparen
    exact (ih k (.inr ⟨hbehind, hparen⟩) rfl).of_le (by omega) fun o e ho hok hcand _ =>
      not_isCandidate hi hno hid ho hok hcand

namespace FoundAt

variable {x : Signature} {mode : SignatureMode} {bs : List UInt8} {o : Nat}

theorem fresh (h : x.FoundAt mode bs o) : Fresh bs x.stop := by
  refine .inl (.inr ?_)
  rw [identifierAt_of_eq h.ends.last]
  rfl

theorem start_le {y : Signature} (h : x.FoundAt mode bs o) (h' : y.FoundAt mode bs o) : x.start ≤ y.start := by
  apply Nat.le_of_not_lt
  intro hlt
  rcases h.maximal with hz | hm
  · omega
  · have hlt' := h.start_lt
    rw [h'.identifier (x.start - 1) (by omega) (by omega)] at hm
    cases hm

theorem unique {y : Signature} (h : x.FoundAt mode bs o) (h' : y.FoundAt mode bs o) : y = x := by
  have hstart : y.start = x.start := Nat.le_antisymm (h'.start_le h) (h.start_le h')
  have hstop : y.stop = x.stop := h'.ends.unique h.ends
  have hfirst : y.first = x.first := by rw [h'.first_eq, hstart, ← h.first_eq]
  have hbehind : y.behind = x.behind := by rw [h'.behind_eq, hstop, ← h.behind_eq]
  cases x
  cases y
  cases hfirst
  cases hbehind
  rfl

end FoundAt

theorem greedy_allFrom (mode : SignatureMode) (bs : List UInt8) (c : Cursor) :
    ∀ i, Fresh bs i → c = .atOffset bs i → Greedy mode bs i (allFrom mode c) := by
  fun_induction allFrom mode c with
  | case1 c d hnext =>
    rintro i hi rfl
    have h := next_atOffset mode bs _ i hi rfl
    rw [hnext] at h
    cases h with
    | none h => exact .done h
  | case2 c x behind hnext ih =>
    rintro i hi rfl
    have h := next_atOffset mode bs _ i hi rfl
    rw [hnext] at h
    cases h with
    | some hx hf h => exact .next hx hf h (ih x.stop hf.fresh hf.behind_eq)

end Signature

/-! ## What is greedy -/

namespace Greedy

variable {mode : SignatureMode} {bs : List UInt8} {i : Nat} {l : List Signature}

theorem exists_foundAt (h : Greedy mode bs i l) {x : Signature} (hx : x ∈ l) :
    i ≤ x.start ∧ ∃ o, x.FoundAt mode bs o := by
  induction h with
  | done => cases hx
  | next hi hf _ _ ih =>
    rcases List.mem_cons.1 hx with rfl | hx
    · exact ⟨hi, _, hf⟩
    · obtain ⟨hle, hx⟩ := ih hx
      have hlt := hf.start_lt
      have hlt' := hf.ends.lt
      exact ⟨by omega, hx⟩

theorem pairwise (h : Greedy mode bs i l) : l.Pairwise (·.stop ≤ ·.start) := by
  induction h with
  | done => exact .nil
  | next _ _ _ h ih => exact .cons (fun y hy => (h.exists_foundAt hy).1) ih

/-- No candidate with a parameter list is lost outside the signatures. -/
theorem complete (h : Greedy mode bs i l) {o e : Nat} (hi : i ≤ o) (hc : IsCandidate bs o)
    (he : mode.ListEnds bs o e) : ∃ x ∈ l, x.start ≤ o ∧ o < x.stop := by
  induction h with
  | done h => exact absurd he (h (o + 1) o e hi (Nat.lt_succ_self o) hc)
  | @next i p x l _ hf hn _ ih =>
    by_cases hop : o < p
    · exact absurd he (hn o e hi hop hc)
    -- `p` is the candidate of `x`, so `o` lies in `x` or behind it
    by_cases hox : o < x.stop
    · have hlt := hf.start_lt
      exact ⟨x, List.mem_cons_self, by omega, hox⟩
    · obtain ⟨y, hy, hyo⟩ := ih (Nat.le_of_not_lt hox)
      exact ⟨y, List.mem_cons_of_mem x hy, hyo⟩

theorem unique (h : Greedy mode bs i l) {l' : List Signature} (h' : Greedy mode bs i l') : l' = l := by
  induction h generalizing l' with
  | done h =>
    cases h' with
    | done => rfl
    | @next _ o x _ hi hf =>
      have hio := Nat.le_trans hi (Nat.le_of_lt hf.start_lt)
      exact absurd hf.ends (h (o + 1) o _ hio (Nat.lt_succ_self o) hf.candidate)
  | @next i o x l hi hf hn _ ih =>
    have hio := Nat.le_trans hi (Nat.le_of_lt hf.start_lt)
    cases h' with
    | done h' => exact absurd hf.ends (h' (o + 1) o _ hio (Nat.lt_succ_self o) hf.candidate)
    | @next _ o' y l' hi' hf' hn' h' =>
      have hio' := Nat.le_trans hi' (Nat.le_of_lt hf'.start_lt)
      rcases Nat.lt_trichotomy o o' with hlt | rfl | hlt
      · exact absurd hf.ends (hn' o _ hio hlt hf.candidate)
      · obtain rfl := hf.unique hf'
        rw [ih h']
      · exact absurd hf'.ends (hn o' _ hio' hlt hf'.candidate)

end Greedy

/-! ## The text of a signature -/

theorem isIdentifier_lt {b : UInt8} (h : Byte.isIdentifier b) : b < 128 := by
  simp only [Byte.isIdentifier, Bool.or_eq_true, Bool.and_eq_true, decide_eq_true_eq, beq_iff_eq] at h
  simp only [UInt8.le_iff_toNat_le, UInt8.lt_iff_toNat_lt, ← UInt8.toNat_inj] at h ⊢
  simp at h ⊢
  omega

theorem exists_of_identifierAt {bs : List UInt8} {i : Nat} (h : identifierAt bs i) :
    ∃ b, bs[i]? = some b ∧ Byte.isIdentifier b :=
  (Option.any_eq_true Byte.isIdentifier _).1 h

theorem takeWhile_eq_take {l : List UInt8} {p : UInt8 → Bool} {n : Nat} (h : ∀ i < n, l[i]?.any p)
    (hn : l[n]?.all (!p ·)) : l.takeWhile p = l.take n := by
  induction l generalizing n with
  | nil => simp
  | cons b r ih =>
    cases n with
    | zero =>
      have hb : p b = false := by simpa using hn
      rw [List.takeWhile_cons_of_neg (by simp [hb]), List.take_zero]
    | succ n =>
      have hb : p b := h 0 (Nat.succ_pos n)
      rw [List.takeWhile_cons_of_pos hb, List.take_succ_cons, ih (fun i hi => h (i + 1) (Nat.succ_lt_succ hi)) hn]

namespace Signature.FoundAt

variable {x : Signature} {mode : SignatureMode} {bs : List UInt8} {o : Nat}

theorem raw_eq (h : x.FoundAt mode bs o) : x.raw = (bs.drop x.start).take (x.stop - x.start) := by
  rw [raw, h.first_eq, Cursor.rest_atOffset]

theorem nameBytes_eq (h : x.FoundAt mode bs o) : x.nameBytes = (bs.drop x.start).take (o - x.start) := by
  have hlt := h.start_lt
  have hlt' := h.ends.lt
  have hraw {i : Nat} (hi : x.start + i ≤ o) : x.raw[i]? = bs[x.start + i]? := by
    rw [h.raw_eq, List.getElem?_take_of_lt (by omega), List.getElem?_drop]
  rw [nameBytes, takeWhile_eq_take (n := o - x.start), h.raw_eq, List.take_take, Nat.min_eq_left (by omega)]
  · intro i hi
    obtain ⟨b, hb, hid⟩ := exists_of_identifierAt (h.identifier (x.start + i) (by omega) (by omega))
    rw [hraw (by omega), hb]
    show (b != Byte.leftParen) = true
    rw [bne_iff_ne]
    rintro rfl
    cases hid
  · rw [hraw (by omega), show x.start + (o - x.start) = o by omega, h.candidate.1]
    rfl

theorem bytes_name (h : x.FoundAt mode bs o) : bytes x.name = (bs.drop x.start).take (o - x.start) := by
  rw [name, bytes_asciiText, h.nameBytes_eq]
  intro b hb
  rw [h.nameBytes_eq] at hb
  obtain ⟨i, hi⟩ := List.mem_iff_getElem?.1 hb
  rw [List.getElem?_take, Option.ite_none_right_eq_some, List.getElem?_drop] at hi
  have hlt := h.start_lt
  have hid := h.identifier (x.start + i) (by omega) (by omega)
  rw [identifierAt_of_eq hi.2] at hid
  exact isIdentifier_lt hid

theorem name_ne_empty (h : x.FoundAt mode bs o) : x.name ≠ "" := by
  intro hn
  have hlt := h.start_lt
  obtain ⟨ho, -⟩ := List.getElem?_eq_some_iff.1 h.candidate.1
  have hl := congrArg List.length h.bytes_name
  rw [hn, List.length_take, List.length_drop] at hl
  change 0 = _ at hl
  omega

theorem bytes_rawText? {text : String} (h : x.FoundAt mode (bytes text) o) :
    ∃ raw, x.rawText? = some raw ∧ bytes raw = ((bytes text).drop x.start).take (x.stop - x.start) := by
  have hlt := h.start_lt
  have hlt' := h.ends.lt
  obtain ⟨b, hb, hid⟩ := exists_of_identifierAt (h.identifier x.start (Nat.le_refl _) hlt)
  obtain ⟨raw, hraw⟩ := exists_bytes_slice (by omega : x.start < x.stop - 1) hb h.ends.last
    (isIdentifier_lt hid) (by decide)
  rw [show x.stop - 1 + 1 = x.stop by omega] at hraw
  refine ⟨raw, ?_, hraw⟩
  rw [rawText?, h.raw_eq, ← hraw, text?_bytes]

end Signature.FoundAt

/-! ## Main theorem -/

/-- The signatures of a text are those that a greedy search from left to right finds. Each has
the name and the extent that its candidate gives it, they do not overlap, and each candidate
with a parameter list lies in one. -/
theorem signatures_greedy (mode : SignatureMode) (text : String) :
    (∀ l, Greedy mode (bytes text) 0 l ↔ l = signatures mode text) ∧
      (∀ x ∈ signatures mode text, ∃ o, x.FoundAt mode (bytes text) o ∧
        (∃ raw, x.rawText? = some raw ∧ bytes raw = ((bytes text).drop x.start).take (x.stop - x.start)) ∧
        bytes x.name = ((bytes text).drop x.start).take (o - x.start) ∧ x.name ≠ "") ∧
      (signatures mode text).Pairwise (·.stop ≤ ·.start) ∧
      ∀ o e, IsCandidate (bytes text) o → mode.ListEnds (bytes text) o e →
        ∃ x ∈ signatures mode text, x.start ≤ o ∧ o < x.stop := by
  have h : Greedy mode (bytes text) 0 (signatures mode text) :=
    Signature.greedy_allFrom mode (bytes text) _ 0 (.inl (.inl rfl)) rfl
  refine ⟨fun l => ⟨fun hl => h.unique hl, fun hl => hl ▸ h⟩, fun x hx => ?_, h.pairwise, fun o e hc he => ?_⟩
  · obtain ⟨-, o, hf⟩ := h.exists_foundAt hx
    exact ⟨o, hf, hf.bytes_rawText?, hf.bytes_name, hf.name_ne_empty⟩
  · exact h.complete (Nat.zero_le o) hc he

end BodyLength
