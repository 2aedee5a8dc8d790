import Mathlib.Data.List.Basic
import BodyLength.Json.Pretty
/-!
# Scalars are read as they were written

The reader of a scalar is run over what the writer makes of one, with any text behind it. A
string ends at its own quote whatever follows, since no character is written with a quote that
is not escaped. A number ends where the text has no digit, point or exponent next; the writer
only has it so inside a list, an object or a whole text.

Only whole numbers of 64 bits are written here. The spelling of a number in floating point is
not unique, and no report has one.
-/

namespace BodyLength

/-- The scalar `x` was read, and `rest` is left. -/
def JsonLexeme.Reads (l : JsonLexeme) (x : JsonScalar) (rest : List Char) : Prop :=
  l.result = .ok x ∧ l.rest = rest

/-- No part of a number begins the text. -/
def JsonText.EndsNumber (s : List Char) : Prop :=
  ∀ c ∈ s.head?, c.isDigit = false ∧ c ≠ '.' ∧ c ≠ 'e' ∧ c ≠ 'E'

/-- A number is a whole one of 64 bits, signed or unsigned. -/
def JsonScalar.IsExact : JsonScalar → Prop
  | .integer k => -(UInt64.size / 2 : Int) ≤ k ∧ k ≤ JsonLexeme.maxWord
  | .float _ => False
  | _ => True

namespace JsonText

theorem endsNumber_nil : EndsNumber [] := by simp [EndsNumber]

theorem endsNumber_cons {c : Char} (s : List Char)
    (h : c.isDigit = false ∧ c ≠ '.' ∧ c ≠ 'e' ∧ c ≠ 'E') : EndsNumber (c :: s) := by
  simp only [EndsNumber, List.head?_cons, Option.mem_def, Option.some.injEq]
  rintro d rfl
  exact h

theorem hexValue?_hexDigit : ∀ n < 16, JsonLexeme.hexValue? (hexDigit n) = some n := by decide

end JsonText

namespace JsonLexeme

open JsonText

section Strings

theorem unit_hexDigit (p : JsonPosition) (s : List Char) {n : Nat} (h : n < 256) :
    unit p ('0' :: '0' :: hexDigit (n / 16) :: hexDigit (n % 16) :: s) = .ok n := by
  have hhigh : hexValue? (hexDigit (n / 16)) = some (n / 16) := hexValue?_hexDigit _ (by omega)
  have hlow : hexValue? (hexDigit (n % 16)) = some (n % 16) :=
    hexValue?_hexDigit _ (Nat.mod_lt _ (by decide))
  have hzero : hexValue? '0' = some 0 := by decide
  simp only [unit, hhigh, hlow, hzero, Except.ok.injEq]
  omega

/-- A control character comes back from its four hexadecimal digits, and is no surrogate. -/
theorem escapedUnit_hexDigit (p : JsonPosition) (s : List Char) {c : Char} (h : c.toNat < 0x20) :
    escapedUnit p ('0' :: '0' :: hexDigit (c.toNat / 16) :: hexDigit (c.toNat % 16) :: s) =
      .ok (c, 4) := by
  have hlow : isLowSurrogate c.toNat = false := by
    simp only [isLowSurrogate, Bool.and_eq_false_iff, decide_eq_false_iff_not]
    omega
  have hhigh : isHighSurrogate c.toNat = false := by
    simp only [isHighSurrogate, Bool.and_eq_false_iff, decide_eq_false_iff_not]
    omega
  simp only [escapedUnit, unit_hexDigit p s (Nat.lt_trans h (by decide)), bind, Except.bind,
    hlow, hhigh, Char.ofNat_toNat]
  rfl

/-- The three forms a character is written in. -/
theorem encodeChar_cases (c : Char) :
    (∃ d, shortEscape? d = some c ∧ encodeChar c = ['\\', d]) ∨
    (c.toNat < 0x20 ∧ encodeChar c =
      ['\\', 'u', '0', '0', hexDigit (c.toNat / 16), hexDigit (c.toNat % 16)]) ∨
    (¬c.toNat < 0x20 ∧ c ≠ '"' ∧ c ≠ '\\' ∧ encodeChar c = [c]) := by
  by_cases hquote : c = '"'
  · subst hquote
    exact .inl ⟨'"', rfl, rfl⟩
  by_cases hslash : c = '\\'
  · subst hslash
    exact .inl ⟨'\\', rfl, rfl⟩
  by_cases hback : c = '\x08'
  · subst hback
    exact .inl ⟨'b', rfl, rfl⟩
  by_cases hfeed : c = '\x0c'
  · subst hfeed
    exact .inl ⟨'f', rfl, rfl⟩
  by_cases hline : c = '\n'
  · subst hline
    exact .inl ⟨'n', rfl, rfl⟩
  by_cases hreturn : c = '\r'
  · subst hreturn
    exact .inl ⟨'r', rfl, rfl⟩
  by_cases htab : c = '\t'
  · subst htab
    exact .inl ⟨'t', rfl, rfl⟩
  have henc : encodeChar c = if c.toNat < 0x20 then
      ['\\', 'u', '0', '0', hexDigit (c.toNat / 16), hexDigit (c.toNat % 16)] else [c] := by
    simp only [encodeChar, hquote, hslash, hback, hfeed, hline, hreturn, htab, if_false]
  by_cases hcontrol : c.toNat < 0x20
  · exact .inr (.inl ⟨hcontrol, henc.trans (if_pos hcontrol)⟩)
  · exact .inr (.inr ⟨hcontrol, hquote, hslash, henc.trans (if_neg hcontrol)⟩)

/-- What is written for a character is read as that character, whatever stands behind it. -/
theorem string_encodeChar (read : List Char) (p : JsonPosition) (c : Char) (s : List Char) :
    ∃ q, string read p (encodeChar c ++ s) = string (c :: read) q s := by
  obtain ⟨d, hd, henc⟩ | ⟨hcontrol, henc⟩ | ⟨hcontrol, hquote, hslash, henc⟩ := encodeChar_cases c
  · refine ⟨p.right 2, ?_⟩
    have hu : d ≠ 'u' := by
      rintro rfl
      simp [shortEscape?] at hd
    rw [henc, List.cons_append, List.singleton_append, string, hd]
    exact hu
  · refine ⟨p.right 6, ?_⟩
    rw [henc]
    simp only [List.cons_append, List.nil_append]
    rw [string, escapedUnit_hexDigit _ _ hcontrol]
    rfl
  · refine ⟨p.after c, ?_⟩
    rw [henc, List.singleton_append, string, if_neg hcontrol]
    all_goals simp [hquote, hslash]

/-- A string ends at its own closing quote, with the characters it was written for. -/
theorem reads_string (cs read : List Char) (p : JsonPosition) (rest : List Char) :
    (string read p (cs.flatMap encodeChar ++ '"' :: rest)).Reads
      (.text (String.ofList (read.reverse ++ cs))) rest := by
  induction cs generalizing read p with
  | nil => simp [string, Reads]
  | cons c cs ih =>
    obtain ⟨q, hq⟩ := string_encodeChar read p c (cs.flatMap encodeChar ++ '"' :: rest)
    rw [List.flatMap_cons, List.append_assoc, hq]
    simpa using ih (c :: read) q

end Strings

section Numbers

/-- All digits are taken if the number they make fits 64 bits. -/
theorem digits_append (ds : List Char) (m n : Nat) {rest : List Char}
    (hdigit : ∀ c ∈ ds, c.isDigit) (hfits : Nat.ofDigitChars 10 ds m ≤ maxWord)
    (hrest : EndsNumber rest) :
    digits m n (ds ++ rest) = (Nat.ofDigitChars 10 ds m, n + ds.length, rest) := by
  induction ds generalizing m n with
  | nil =>
    cases rest with
    | nil => rfl
    | cons c rest => simp [digits, (hrest c rfl).1]
  | cons c ds ih =>
    rw [Nat.ofDigitChars_cons] at hfits
    -- More digits only make the number greater, so every part of it fits if all of it does.
    have hstep : 10 * m + (c.toNat - 48) ≤ maxWord :=
      Nat.le_trans (le_ofDigitChars ds _) hfits
    have hmore := ih (10 * m + (c.toNat - 48)) (n + 1)
      (fun d hd => hdigit d (List.mem_cons_of_mem c hd)) hfits
    rw [List.cons_append, digits, if_pos ⟨hdigit c List.mem_cons_self, hstep⟩, hmore,
      Nat.ofDigitChars_cons, List.length_cons, Nat.add_right_comm, Nat.add_assoc]
    rfl
where
  le_ofDigitChars (ds : List Char) (m : Nat) : m ≤ Nat.ofDigitChars 10 ds m := by
    induction ds generalizing m with
    | nil => exact Nat.le_refl m
    | cons c ds ih =>
      rw [Nat.ofDigitChars_cons]
      exact Nat.le_trans (by omega) (ih _)

/-- Only zero is written with a zero in front. -/
theorem toDigits_eq_cons {m : Nat} (h : 0 < m) :
    ∃ c ds, Nat.toDigits 10 m = c :: ds ∧ c ≠ '0' := by
  induction m using Nat.strongRecOn with
  | _ m ih =>
    by_cases hm : m < 10
    · exact ⟨_, [], Nat.toDigits_of_lt_base hm, digitChar_ne_zero m hm h⟩
    · obtain ⟨c, ds, hds, hc⟩ := ih (m / 10) (by omega) (by omega)
      refine ⟨c, ds ++ [(m % 10).digitChar], ?_, hc⟩
      rw [Nat.toDigits_of_base_le (by decide) (by omega), hds, List.cons_append]
where
  digitChar_ne_zero : ∀ m < 10, 0 < m → m.digitChar ≠ '0' := by decide

/-- Behind a number that ends there, only its digits count. -/
theorem behindWhole_of_endsNumber (negative : Bool) (m : Nat) (p : JsonPosition)
    {rest : List Char} (h : EndsNumber rest) :
    behindWhole negative m 0 p rest = integer negative m rest p := by
  cases rest with
  | nil => rfl
  | cons c rest =>
    obtain ⟨-, hpoint, he, hE⟩ := h c rfl
    rw [behindWhole, if_pos rfl]
    all_goals simp_all

/-- The digits of a number of 64 bits are read as that number. -/
theorem number_toDigits (negative : Bool) (p : JsonPosition) {m : Nat} (hm : m ≤ maxWord)
    {rest : List Char} (hrest : EndsNumber rest) :
    ∃ q, number negative p (Nat.toDigits 10 m ++ rest) = integer negative m rest q := by
  obtain rfl | hpos := Nat.eq_zero_or_pos m
  · have hhead : rest.head?.any Char.isDigit = false := by
      cases rest with
      | nil => rfl
      | cons c rest => exact (hrest c rfl).1
    refine ⟨p.right 1, ?_⟩
    rw [Nat.toDigits_zero, List.singleton_append, number, if_pos rfl, hhead,
      if_neg Bool.false_ne_true, behindWhole_of_endsNumber negative 0 _ hrest]
  · obtain ⟨c, ds, hds, hc⟩ := toDigits_eq_cons hpos
    have hdigit : ∀ d ∈ c :: ds, d.isDigit := fun d hd =>
      Nat.isDigit_of_mem_toDigits (by decide) (by decide) (hds ▸ hd)
    have hvalue : Nat.ofDigitChars 10 ds (c.toNat - 48) = m := by
      have : Nat.ofDigitChars 10 (c :: ds) 0 = m := hds ▸ Nat.ofDigitChars_ten_toDigits
      rwa [Nat.ofDigitChars_cons, Nat.mul_zero, Nat.zero_add] at this
    have hend : rest.takeWhile Char.isDigit = [] := by
      cases rest with
      | nil => rfl
      | cons d rest => simp [(hrest d rfl).1]
    have hdigits := digits_append ds (c.toNat - 48) 1
      (fun d hd => hdigit d (List.mem_cons_of_mem c hd)) (hvalue.symm ▸ hm) hrest
    refine ⟨p.right (1 + ds.length), ?_⟩
    rw [hds, List.cons_append, number, if_neg hc, if_pos (hdigit c List.mem_cons_self), hdigits]
    simp only [hvalue, hend, List.length_nil, List.drop_zero]
    exact behindWhole_of_endsNumber negative m _ hrest

theorem scalar?_digit (p : JsonPosition) {c : Char} (h : c.isDigit) (s : List Char) :
    scalar? p c s = some (number false p (c :: s)) := by
  unfold scalar?
  split
  case h_6 => exact if_pos h
  all_goals exact absurd h (by decide)

/-- A whole number of 64 bits, signed or unsigned, is read from its decimal spelling. -/
theorem reads_integer (k : Int) (p : JsonPosition) {rest : List Char}
    (h : (JsonScalar.integer k).IsExact) (hrest : EndsNumber rest) :
    ∃ c s l, k.repr.toList = c :: s ∧ (c = '-' ∨ c.isDigit) ∧
      scalar? p c (s ++ rest) = some l ∧ l.Reads (.integer k) rest := by
  obtain ⟨hlow, hhigh⟩ := h
  cases k with
  | ofNat m =>
    obtain ⟨c, ds, hds⟩ := List.exists_cons_of_ne_nil (Nat.toDigits_ne_nil (n := m) (b := 10))
    have hc : c.isDigit :=
      Nat.isDigit_of_mem_toDigits (by decide) (by decide) (hds ▸ List.mem_cons_self)
    obtain ⟨q, hq⟩ := number_toDigits false p (Int.ofNat_le.mp hhigh) hrest
    rw [hds, List.cons_append] at hq
    refine ⟨c, ds, _, Nat.toList_repr.trans hds, .inr hc, scalar?_digit p hc _, ?_⟩
    rw [hq]
    exact ⟨rfl, rfl⟩
  | negSucc m =>
    have hm : m + 1 ≤ UInt64.size / 2 := by omega
    obtain ⟨q, hq⟩ := number_toDigits true (p.right 1) (Nat.le_trans hm (by decide)) hrest
    refine ⟨'-', Nat.toDigits 10 (m + 1), _, ?_, .inl rfl, rfl, ?_⟩
    · simp [Int.repr, Nat.toList_repr]
    · rw [hq, integer, if_pos rfl, if_pos ⟨Nat.succ_pos m, hm⟩]
      exact ⟨rfl, rfl⟩

end Numbers

theorem reads_word (x : JsonScalar) (p : JsonPosition) (ws rest : List Char) :
    (word x p ws (ws ++ rest)).Reads x rest := by
  induction ws generalizing p with
  | nil => exact ⟨rfl, rfl⟩
  | cons w ws ih =>
    rw [List.cons_append, word, if_pos rfl]
    exact ih (p.after w)

end JsonLexeme

namespace JsonToken

open JsonText JsonLexeme

/-- The text of a scalar begins with a character that only a scalar begins with. -/
theorem scalar?_scalar (x : JsonScalar) (p : JsonPosition) {rest : List Char} (h : x.IsExact)
    (hrest : EndsNumber rest) :
    ∃ c s l, JsonText.scalar x = c :: s ∧ isSpace c = false ∧ mark? c = none ∧
      scalar? p c (s ++ rest) = some l ∧ l.Reads x rest := by
  cases x with
  | null => exact ⟨'n', ['u', 'l', 'l'], _, rfl, rfl, rfl, rfl, reads_word _ _ _ rest⟩
  | bool b =>
    cases b with
    | false =>
      exact ⟨'f', ['a', 'l', 's', 'e'], _, rfl, rfl, rfl, rfl, reads_word _ _ _ rest⟩
    | true => exact ⟨'t', ['r', 'u', 'e'], _, rfl, rfl, rfl, rfl, reads_word _ _ _ rest⟩
  | integer k =>
    obtain ⟨c, s, l, hs, hc, hl, hreads⟩ := reads_integer k p h hrest
    exact ⟨c, s, l, hs, isSpace_of_number hc, mark?_of_number hc, hl, hreads⟩
  | float x => exact h.elim
  | text t =>
    refine ⟨'"', t.toList.flatMap encodeChar ++ ['"'], _, rfl, rfl, rfl, rfl, ?_⟩
    rw [List.append_assoc]
    simpa using reads_string t.toList [] (p.right 1) rest
where
  isSpace_of_number {c : Char} (h : c = '-' ∨ c.isDigit) : isSpace c = false := by
    obtain rfl | h := h
    · rfl
    · simp only [isSpace, Bool.or_eq_false_iff, decide_eq_false_iff_not]
      refine ⟨⟨⟨?_, ?_⟩, ?_⟩, ?_⟩ <;> (rintro rfl; exact absurd h (by decide))
  mark?_of_number {c : Char} (h : c = '-' ∨ c.isDigit) : mark? c = none := by
    obtain rfl | h := h
    · rfl
    · unfold mark?
      split
      all_goals first | rfl | exact absurd h (by decide)

/-- The text of a scalar is one token. -/
theorem scan_scalar (x : JsonScalar) (p : JsonPosition) {rest : List Char} (h : x.IsExact)
    (hrest : EndsNumber rest) :
    ∃ q, scan p (JsonText.scalar x ++ rest) =
      (⟨.scalar x, p, q⟩ :: (scan q rest).1, (scan q rest).2) := by
  obtain ⟨c, s, l, hs, hspace, hmark, hl, hresult, hbehind⟩ := scalar?_scalar x p h hrest
  refine ⟨l.position, ?_⟩
  rw [hs, List.cons_append, scan, if_neg (by simp [hspace]), hmark]
  simp only
  split
  case h_1 hnone => rw [hl] at hnone; cases hnone
  case h_2 l' hsome =>
    obtain rfl : l = l' := Option.some.inj (hl.symm.trans hsome)
    rw [hresult, hbehind]

theorem scan_mark {c : Char} {kind : JsonTokenKind} (p : JsonPosition) (s : List Char)
    (hspace : isSpace c = false) (h : mark? c = some kind) :
    scan p (c :: s) =
      (⟨kind, p, p.right 1⟩ :: (scan (p.right 1) s).1, (scan (p.right 1) s).2) := by
  rw [scan, if_neg (by simp [hspace]), h]

/-- The space between tokens only moves the position on. -/
theorem scan_space (p : JsonPosition) (s : List Char) {space : List Char}
    (h : ∀ c ∈ space, isSpace c) : scan p (space ++ s) = scan (space.foldl .after p) s := by
  induction space generalizing p with
  | nil => rfl
  | cons c space ih =>
    rw [List.cons_append, scan, if_pos (h c List.mem_cons_self)]
    exact ih (p.after c) fun d hd => h d (List.mem_cons_of_mem c hd)

theorem isSpace_of_mem_newline {c : Char} {level : Nat} (h : c ∈ newline level) : isSpace c := by
  obtain rfl | h := List.mem_cons.mp h
  · rfl
  · rw [List.eq_of_mem_replicate h]
    rfl

end JsonToken

end BodyLength
