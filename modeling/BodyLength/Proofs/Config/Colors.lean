import BodyLength.Color
import BodyLength.Proofs.Text.Blank
import Mathlib.Computability.RegularExpressions
/-!
# Which texts are colors

`Color.Spells` says which texts without white space around them are colors, and which ones: digits with or
without a number sign, and names. A text is read as what it spells without that white space
(`Color.parse?_eq_some_iff`), whatever the case of its letters, and no text spells both digits and a name
(`Color.not_isName_of_isHex`). A color is shown as a text that spells it (`Color.spells_display`).

`Color.hexPattern` says the same of digits as a regular expression, and `Color.parseHex?` reads what it allows
(`Color.isSome_parseHex?_iff`).
-/

namespace BodyLength

namespace ColorName

theorem ofName?_eq_some_iff {s : List Char} {n : ColorName} : ofName? s = some n ↔ n.name.toList = s := by
  constructor
  · intro h
    rw [ofName?] at h
    simpa using List.find?_some h
  · rintro rfl
    cases n <;> rfl

end ColorName

namespace Color

open RegularExpression (char)

/-- One of some characters. -/
def oneOf (cs : List Char) : RegularExpression Char := (cs.map char).sum

/-- The ASCII characters from the first to the last. -/
def between (first last : Char) : List Char :=
  (List.range' first.toNat (last.toNat + 1 - first.toNat)).map Char.ofNat

def hexDigit : RegularExpression Char := oneOf (between '0' '9' ++ between 'A' 'F' ++ between 'a' 'f')

/-- The expression `^#?(?:[0-9A-Fa-f]{3}|[0-9A-Fa-f]{6})$`. -/
def hexPattern : RegularExpression Char := (1 + char '#') * (hexDigit ^ 3 + hexDigit ^ 6)

/-- Three or six hexadecimal digits. -/
def IsDigits (s : List Char) : Prop := (∀ c ∈ s, isHexDigit c) ∧ (s.length = 3 ∨ s.length = 6)

/-- Digits with or without a number sign. -/
def IsHex (s : List Char) : Prop := ∃ digits, (s = digits ∨ s = '#' :: digits) ∧ IsDigits digits

/-- A name, in letters of any case. -/
def IsName (s : List Char) : Prop := ∃ n : ColorName, s.map lowerAscii = n.name.toList

/-- The color that a text stands for. -/
inductive Spells : List Char → Color → Prop where
  | digits {s : List Char} : IsDigits s → Spells s (.hex (s.map lowerAscii))
  | sign {s : List Char} : IsDigits s → Spells ('#' :: s) (.hex (s.map lowerAscii))
  | name {s : List Char} {n : ColorName} : s.map lowerAscii = n.name.toList → Spells s (.named n)

/-! ## Digits -/

theorem isHexDigit_iff {c : Char} : isHexDigit c ↔
    (48 ≤ c.toNat ∧ c.toNat ≤ 57) ∨ (65 ≤ c.toNat ∧ c.toNat ≤ 70) ∨ (97 ≤ c.toNat ∧ c.toNat ≤ 102) := by
  simp only [isHexDigit, Bool.or_eq_true, Bool.and_eq_true, decide_eq_true_iff, or_assoc]
  exact Iff.rfl

theorem isHexDigit_lowerAscii (c : Char) : isHexDigit (lowerAscii c) = isHexDigit c := by
  rw [Bool.eq_iff_iff, isHexDigit_iff, isHexDigit_iff, toNat_lowerAscii]
  split <;> omega

theorem isDigits_map_lowerAscii {s : List Char} : IsDigits (s.map lowerAscii) ↔ IsDigits s := by
  simp only [IsDigits, List.forall_mem_map, isHexDigit_lowerAscii, List.length_map]

theorem not_isDigits_sign (s : List Char) : ¬ IsDigits ('#' :: s) := by
  rintro ⟨hdigits, -⟩
  exact absurd (hdigits '#' List.mem_cons_self) (by decide)

theorem parseHex?_eq_some_iff {s : List Char} {c : Color} : parseHex? s = some c ↔
    ∃ digits, (s = digits ∨ s = '#' :: digits) ∧ IsDigits digits ∧ c = .hex (digits.map lowerAscii) := by
  have hif (digits : List Char) :
      (if digits.all isHexDigit ∧ (digits.length = 3 ∨ digits.length = 6) then some (hex (digits.map lowerAscii))
        else none) = some c ↔ IsDigits digits ∧ c = .hex (digits.map lowerAscii) := by
    rw [Option.ite_none_right_eq_some, List.all_eq_true, Option.some.injEq, eq_comm (a := c)]
    rfl
  by_cases hsign : ∃ rest, s = '#' :: rest
  · obtain ⟨rest, rfl⟩ := hsign
    rw [parseHex?, hif]
    constructor
    · exact fun h => ⟨rest, .inr rfl, h⟩
    · rintro ⟨digits, rfl | hrest, hdigits⟩
      · exact absurd hdigits.1 (not_isDigits_sign rest)
      · obtain rfl := List.tail_eq_of_cons_eq hrest
        exact hdigits
  · have hplain (rest : List Char) : s ≠ '#' :: rest := fun h => hsign ⟨rest, h⟩
    simp only [parseHex?, hplain, hif, or_false, exists_eq_left']

/-! ## The pattern of digits -/

section
variable {s : List Char} {c : Char}

theorem mem_oneOf_iff {cs : List Char} : s ∈ (oneOf cs).matches' ↔ ∃ c ∈ cs, s = [c] := by
  rw [oneOf]
  induction cs with
  | nil => simp [Language.notMem_zero]
  | cons c cs ih =>
    rw [List.map_cons, List.sum_cons, RegularExpression.matches'_add, Language.mem_add, ih,
      List.exists_mem_cons_iff]
    rfl

theorem mem_between_iff {first last : Char} (hlast : last.toNat < 128) :
    c ∈ between first last ↔ first.toNat ≤ c.toNat ∧ c.toNat ≤ last.toNat := by
  have hascii {n : Nat} (hn : n < 128) : (Char.ofNat n).toNat = n := by
    rw [Char.ofNat, dif_pos (.inl (by omega))]
    rfl
  simp only [between, List.mem_map, List.mem_range'_1]
  constructor
  · rintro ⟨n, hn, rfl⟩
    rw [hascii] <;> omega
  · intro hc
    exact ⟨c.toNat, by omega, Char.ofNat_toNat c⟩

theorem mem_hexDigit_iff : s ∈ hexDigit.matches' ↔ ∃ c, isHexDigit c ∧ s = [c] := by
  have hdigit (c : Char) : c ∈ between '0' '9' ++ between 'A' 'F' ++ between 'a' 'f' ↔ isHexDigit c := by
    rw [List.mem_append, List.mem_append, mem_between_iff (by decide), mem_between_iff (by decide),
      mem_between_iff (by decide), isHexDigit_iff, or_assoc]
    exact Iff.rfl
  simp only [hexDigit, mem_oneOf_iff, hdigit]

theorem mem_hexDigit_pow_iff {n : Nat} :
    s ∈ (hexDigit ^ n).matches' ↔ (∀ c ∈ s, isHexDigit c) ∧ s.length = n := by
  rw [RegularExpression.matches'_pow]
  induction n generalizing s with
  | zero =>
    rw [pow_zero, Language.mem_one, List.length_eq_zero_iff]
    constructor
    · rintro rfl
      exact ⟨List.forall_mem_nil _, rfl⟩
    · exact And.right
  | succ n ih =>
    rw [pow_succ', Language.mem_mul]
    constructor
    · rintro ⟨_, hone, t, ht, rfl⟩
      obtain ⟨c, hc, rfl⟩ := mem_hexDigit_iff.1 hone
      obtain ⟨hdigits, hlength⟩ := ih.1 ht
      exact ⟨List.forall_mem_cons.2 ⟨hc, hdigits⟩, congrArg (· + 1) hlength⟩
    · rintro ⟨hdigits, hlength⟩
      obtain ⟨c, t, rfl⟩ := List.exists_cons_of_length_eq_add_one hlength
      obtain ⟨hc, ht⟩ := List.forall_mem_cons.1 hdigits
      exact ⟨[c], mem_hexDigit_iff.2 ⟨c, hc, rfl⟩, t, ih.2 ⟨ht, Nat.succ.inj hlength⟩, rfl⟩

theorem mem_hexPattern_iff : s ∈ hexPattern.matches' ↔ IsHex s := by
  have hdigits (digits : List Char) : digits ∈ (hexDigit ^ 3 + hexDigit ^ 6).matches' ↔ IsDigits digits := by
    rw [RegularExpression.matches'_add, Language.mem_add, mem_hexDigit_pow_iff, mem_hexDigit_pow_iff,
      ← and_or_left, IsDigits]
  rw [hexPattern, RegularExpression.matches'_mul, Language.mem_mul]
  simp only [hdigits]
  constructor
  · rintro ⟨_, rfl | rfl, digits, h, rfl⟩
    · exact ⟨digits, .inl rfl, h⟩
    · exact ⟨digits, .inr rfl, h⟩
  · rintro ⟨digits, rfl | rfl, h⟩
    · exact ⟨[], .inl rfl, s, h, rfl⟩
    · exact ⟨['#'], .inr rfl, digits, h, rfl⟩

/-- What the expression allows is read as digits, and nothing else is. -/
theorem isSome_parseHex?_iff : (parseHex? s).isSome ↔ s ∈ hexPattern.matches' := by
  rw [mem_hexPattern_iff, Option.isSome_iff_exists]
  simp only [parseHex?_eq_some_iff]
  constructor
  · rintro ⟨c, digits, hs, h, -⟩
    exact ⟨digits, hs, h⟩
  · rintro ⟨digits, hs, h⟩
    exact ⟨_, digits, hs, h, rfl⟩

end

/-! ## Names -/

/-- Every name has a letter that is no digit. -/
theorem not_all_isHexDigit_name (n : ColorName) : ¬ n.name.toList.all isHexDigit := by
  cases n <;> decide

theorem sign_notMem_name (n : ColorName) : '#' ∉ n.name.toList := by
  cases n <;> decide

theorem not_isBlank_of_mem_name (n : ColorName) : ∀ c ∈ n.name.toList, ¬ Blank.isBlank c := by
  have hnone : n.name.toList.any Blank.isBlank = false := by cases n <;> decide
  exact List.any_eq_false.1 hnone

theorem name_map_lowerAscii (n : ColorName) : n.name.toList.map lowerAscii = n.name.toList := by
  cases n <;> decide

theorem not_isName_of_isHex {s : List Char} (h : IsHex s) : ¬ IsName s := by
  rintro ⟨n, hname⟩
  obtain ⟨digits, rfl | rfl, hdigits⟩ := h
  · rw [← isDigits_map_lowerAscii, hname] at hdigits
    exact not_all_isHexDigit_name n (List.all_eq_true.2 hdigits.1)
  · have hsign : '#' ∈ ('#' :: digits).map lowerAscii :=
      (mem_map_lowerAscii_iff (by decide)).2 List.mem_cons_self
    rw [hname] at hsign
    exact sign_notMem_name n hsign

/-! ## What a text spells -/

variable {s : List Char} {c : Color}

theorem exists_spells_iff : (∃ c, Spells s c) ↔ IsHex s ∨ IsName s := by
  constructor
  · rintro ⟨c, hdigits | hdigits | hname⟩
    · exact .inl ⟨s, .inl rfl, hdigits⟩
    · exact .inl ⟨_, .inr rfl, hdigits⟩
    · exact .inr ⟨_, hname⟩
  · rintro (⟨digits, rfl | rfl, hdigits⟩ | ⟨n, hname⟩)
    · exact ⟨_, .digits hdigits⟩
    · exact ⟨_, .sign hdigits⟩
    · exact ⟨_, .name hname⟩

/-- There is no white space in digits and names. -/
theorem not_isBlank_of_spells (h : Spells s c) : ∀ x ∈ s, ¬ Blank.isBlank x := by
  have hdigit {x : Char} (hx : isHexDigit x) : ¬ Blank.isBlank x := by
    rw [isHexDigit_iff] at hx
    intro hblank
    have := Blank.toNat_of_isBlank hblank
    omega
  cases h with
  | digits hdigits => exact fun x hx => hdigit (hdigits.1 x hx)
  | sign hdigits => exact List.forall_mem_cons.2 ⟨by decide, fun x hx => hdigit (hdigits.1 x hx)⟩
  | name hname =>
    intro x hx
    rw [← Blank.isBlank_lowerAscii]
    exact not_isBlank_of_mem_name _ _ (hname ▸ List.mem_map_of_mem hx)

/-- The case of letters does not matter. -/
theorem spells_map_lowerAscii : Spells (s.map lowerAscii) c ↔ Spells s c := by
  have hidle (s : List Char) : (s.map lowerAscii).map lowerAscii = s.map lowerAscii := by
    simp only [List.map_map, Function.comp_def, lowerAscii_lowerAscii]
  constructor
  · generalize ht : s.map lowerAscii = t
    rintro (hdigits | hdigits | hname)
    · subst ht
      rw [hidle]
      exact .digits (isDigits_map_lowerAscii.1 hdigits)
    · obtain ⟨x, digits, rfl, hx, rfl⟩ := List.map_eq_cons_iff.1 ht
      obtain rfl := (lowerAscii_eq_iff (by decide)).1 hx
      rw [hidle]
      exact .sign (isDigits_map_lowerAscii.1 hdigits)
    · subst ht
      rw [hidle] at hname
      exact .name hname
  · rintro (hdigits | hdigits | hname)
    · have h := Spells.digits (isDigits_map_lowerAscii.2 hdigits)
      rwa [hidle] at h
    · have h := Spells.sign (isDigits_map_lowerAscii.2 hdigits)
      rwa [hidle] at h
    · exact .name ((hidle s).trans hname)

theorem toList_display_hex (digits : List Char) : (display (.hex digits)).toList = '#' :: digits := by
  rw [display, String.toList_append, String.toList_ofList, String.toList_ofList]
  rfl

/-- A color is shown as a text that spells it. -/
theorem spells_display (h : Spells s c) : Spells c.display.toList c := by
  cases h with
  | digits hdigits | sign hdigits =>
    rw [toList_display_hex]
    exact spells_map_lowerAscii.2 (.sign hdigits)
  | name hname => exact .name (name_map_lowerAscii _)

/-- A text is read as what it spells without the white space around it. -/
theorem parse?_eq_some_iff {v : String} : parse? v = some c ↔ Spells (Blank.trim v.toList) c := by
  rw [parse?]
  generalize Blank.trim v.toList = s
  constructor
  · intro h
    cases hhex : parseHex? s with
    | some c' =>
      simp only [hhex, Option.some.injEq] at h
      obtain ⟨digits, rfl | rfl, hdigits, rfl⟩ := parseHex?_eq_some_iff.1 hhex
      · exact h ▸ .digits hdigits
      · exact h ▸ .sign hdigits
    | none =>
      simp only [hhex] at h
      obtain ⟨n, hn, rfl⟩ := Option.map_eq_some_iff.1 h
      exact .name (ColorName.ofName?_eq_some_iff.1 hn).symm
  · intro h
    cases h with
    | digits hdigits => simp only [parseHex?_eq_some_iff.2 ⟨s, .inl rfl, hdigits, rfl⟩]
    | sign hdigits => simp only [parseHex?_eq_some_iff.2 ⟨_, .inr rfl, hdigits, rfl⟩]
    | @name _ n hname =>
      have hhex : parseHex? s = none := by
        rw [← Option.not_isSome_iff_eq_none, isSome_parseHex?_iff, mem_hexPattern_iff]
        exact fun hs => not_isName_of_isHex hs ⟨n, hname⟩
      simp only [hhex, ColorName.ofName?_eq_some_iff.2 hname.symm, Option.map_some]

/-- A text spells one color at most. -/
theorem Spells.unique {c' : Color} (h : Spells s c) (h' : Spells s c') : c = c' := by
  have hread {c : Color} (h : Spells s c) : parse? (String.ofList s) = some c := by
    rwa [parse?_eq_some_iff, String.toList_ofList, Blank.trim_eq_self (not_isBlank_of_spells h)]
  exact Option.some.inj ((hread h).symm.trans (hread h'))

/-- The number sign is not part of the color. -/
theorem spells_sign_iff (h : IsDigits s) : Spells ('#' :: s) c ↔ Spells s c := by
  constructor
  · exact fun hc => hc.unique (.sign h) ▸ .digits h
  · exact fun hc => hc.unique (.digits h) ▸ .sign h

/-! ## Texts with white space around them -/

theorem isSome_parse?_iff {v : String} : (parse? v).isSome ↔
    ∃ before s after, v.toList = before ++ s ++ after ∧ (∀ x ∈ before, Blank.isBlank x) ∧
      (∀ x ∈ after, Blank.isBlank x) ∧ (IsHex s ∨ IsName s) := by
  rw [Option.isSome_iff_exists]
  simp only [parse?_eq_some_iff, ← exists_spells_iff]
  constructor
  · rintro ⟨c, hc⟩
    obtain ⟨before, after, hv, hbefore, hafter⟩ := Blank.exists_trim v.toList
    exact ⟨before, _, after, hv, hbefore, hafter, c, hc⟩
  · rintro ⟨before, s, after, hv, hbefore, hafter, c, hc⟩
    refine ⟨c, ?_⟩
    rwa [hv, Blank.trim_append hbefore hafter, Blank.trim_eq_self (not_isBlank_of_spells hc)]

/-- Texts that spell the same without the white space around them are read alike. -/
theorem parse?_congr {v w : String} (h : ∀ c, Spells (Blank.trim w.toList) c ↔ Spells (Blank.trim v.toList) c) :
    parse? w = parse? v :=
  Option.ext fun c => parse?_eq_some_iff.trans ((h c).trans parse?_eq_some_iff.symm)

theorem parse?_eq_of_map_lowerAscii {v w : String} (h : w.toList.map lowerAscii = v.toList.map lowerAscii) :
    parse? w = parse? v := by
  refine parse?_congr fun c => ?_
  rw [← spells_map_lowerAscii, ← Blank.trim_map_lowerAscii, h, Blank.trim_map_lowerAscii, spells_map_lowerAscii]

variable {before after : List Char}

theorem parse?_append (hbefore : ∀ x ∈ before, Blank.isBlank x) (hafter : ∀ x ∈ after, Blank.isBlank x)
    (v : String) : parse? (String.ofList (before ++ v.toList ++ after)) = parse? v := by
  refine parse?_congr fun c => ?_
  rw [String.toList_ofList, Blank.trim_append hbefore hafter]

theorem parse?_sign {digits : List Char} (h : IsDigits digits) :
    parse? (String.ofList ('#' :: digits)) = parse? (String.ofList digits) := by
  refine parse?_congr fun c => ?_
  rw [String.toList_ofList, String.toList_ofList, Blank.trim_eq_self (not_isBlank_of_spells (.sign h)),
    Blank.trim_eq_self (not_isBlank_of_spells (.digits h)), spells_sign_iff h]

theorem parse?_display {v : String} {c : Color} (h : parse? v = some c) : parse? c.display = some c := by
  have hc := spells_display (parse?_eq_some_iff.1 h)
  rwa [parse?_eq_some_iff, Blank.trim_eq_self (not_isBlank_of_spells hc)]

/-! ## Main theorem -/

/-- A text is a color if, but for white space around it, it is a number sign or none with three or six digits
behind it, or a name in letters of any case; it is never both. Neither the case of its letters nor white space
around it nor the number sign makes a difference, and what is shown of a color is read as that color. -/
theorem parse?_accepts_what_is_spelled (v : String) :
    ((parse? v).isSome ↔ ∃ before s after, v.toList = before ++ s ++ after ∧ (∀ x ∈ before, Blank.isBlank x) ∧
      (∀ x ∈ after, Blank.isBlank x) ∧ (IsHex s ∨ IsName s)) ∧
    (∀ w : String, w.toList.map lowerAscii = v.toList.map lowerAscii → parse? w = parse? v) ∧
    (∀ before after, (∀ x ∈ before, Blank.isBlank x) → (∀ x ∈ after, Blank.isBlank x) →
      parse? (String.ofList (before ++ v.toList ++ after)) = parse? v ∧
      ∀ digits, IsDigits digits → parse? (String.ofList (before ++ '#' :: digits ++ after)) =
        parse? (String.ofList (before ++ digits ++ after))) ∧
    (∀ c, parse? v = some c → parse? c.display = some c) ∧
    ¬ ((parseHex? (Blank.trim v.toList)).isSome ∧
      (ColorName.ofName? ((Blank.trim v.toList).map lowerAscii)).isSome) := by
  refine ⟨isSome_parse?_iff, fun w => parse?_eq_of_map_lowerAscii, fun before after hbefore hafter =>
    ⟨parse?_append hbefore hafter v, fun digits hdigits => ?_⟩, fun c => parse?_display, ?_⟩
  · have hspaced (s : List Char) : parse? (String.ofList (before ++ s ++ after)) = parse? (String.ofList s) := by
      rw [← parse?_append hbefore hafter (String.ofList s), String.toList_ofList]
    rw [hspaced, hspaced, parse?_sign hdigits]
  · rintro ⟨hhex, hname⟩
    obtain ⟨n, hn⟩ := Option.isSome_iff_exists.1 hname
    exact not_isName_of_isHex (mem_hexPattern_iff.1 (isSome_parseHex?_iff.1 hhex))
      ⟨n, (ColorName.ofName?_eq_some_iff.1 hn).symm⟩

/-- Digits in letters of either case, with a no-break space in front. -/
theorem parse?_spaced_digits :
    let v := "\u00A0#FfA "
    (parse? v).isSome ∧ parse? "\u00A0#fFa " = parse? v ∧ parse? "\t\u00A0#FfA \u3000" = parse? v ∧
      parse? "\t#FfA\u3000" = parse? "\tFfA\u3000" ∧ parse? "#ffa" = some (.hex "ffa".toList) := by
  intro v
  obtain ⟨haccept, hcase, hspace, hdisplay, -⟩ := parse?_accepts_what_is_spelled v
  obtain ⟨hspaced, hsign⟩ := hspace ['\t'] ['\u3000'] (List.forall_mem_singleton.2 rfl)
    (List.forall_mem_singleton.2 rfl)
  have hdigits : IsDigits "FfA".toList := ⟨List.all_eq_true.1 rfl, by decide⟩
  have hv : v.toList = ['\u00A0'] ++ "#FfA".toList ++ [' '] := by decide
  have hletters : "\u00A0#fFa ".toList.map lowerAscii = v.toList.map lowerAscii := by decide
  have hlonger : String.ofList (['\t'] ++ v.toList ++ ['\u3000']) = "\t\u00A0#FfA \u3000" := by decide
  have hsigned : String.ofList (['\t'] ++ '#' :: "FfA".toList ++ ['\u3000']) = "\t#FfA\u3000" := by decide
  have hplain : String.ofList (['\t'] ++ "FfA".toList ++ ['\u3000']) = "\tFfA\u3000" := by decide
  have hshown : (hex "ffa".toList).display = "#ffa" := by decide
  refine ⟨?_, hcase _ hletters, ?_, ?_, ?_⟩
  · exact haccept.2 ⟨_, _, _, hv, List.forall_mem_singleton.2 rfl, List.forall_mem_singleton.2 rfl,
      .inl ⟨_, .inr rfl, hdigits⟩⟩
  · rw [← hspaced, hlonger]
  · rw [← hsigned, ← hplain, hsign _ hdigits]
  · rw [← hshown]
    exact hdisplay _ (by decide)

end Color

end BodyLength
