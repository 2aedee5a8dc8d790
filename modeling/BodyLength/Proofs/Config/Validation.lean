import BodyLength.Proofs.Config.Extensions
/-!
# From valid configurations to settings

Settings are made of a configuration if and only if none of its checks fails. Their extensions are in a normal
form (`Config.IsNormal`), in which a configuration can take them up again (`Config.resolve_withExtensions`).
-/

namespace BodyLength

namespace Config

/-! ## Extensions -/

/-- The form in which extensions are compared. -/
structure IsNormal (ext : List Char) : Prop where
  ne_nil : ext ≠ []
  not_capital : ∀ c ∈ ext, ¬ ('A' ≤ c ∧ c ≤ 'Z')
  head_ne_dot : ext.head? ≠ some '.'
  slash_notMem : '/' ∉ ext
  backslash_notMem : '\\' ∉ ext
  star_notMem : '*' ∉ ext

theorem isNormal_normalExtension {ext : String} (h : isExtension ext) : IsNormal (normalExtension ext) := by
  obtain ⟨hne, hslash, hbackslash, hstar⟩ := isExtension_iff.1 h
  constructor
  · rwa [normalExtension, Ne, List.map_eq_nil_iff]
  · intro c hc
    obtain ⟨c', -, rfl⟩ := List.mem_map.1 hc
    exact not_capital_lowerAscii c'
  · -- the dots in front are gone before the letters are made small
    rw [normalExtension, List.head?_map, Ne, Option.map_eq_some_iff]
    rintro ⟨c, hc, hdot⟩
    obtain rfl := (lowerAscii_eq_iff (by decide)).1 hdot
    have hfirst : (ext.toList.dropWhile (· == '.')).head? = some '.' := hc
    have hstop := List.head?_dropWhile_not (· == '.') ext.toList
    rw [hfirst] at hstop
    cases hstop
  · rwa [normalExtension, mem_map_lowerAscii_iff (by decide)]
  · rwa [normalExtension, mem_map_lowerAscii_iff (by decide)]
  · rwa [normalExtension, mem_map_lowerAscii_iff (by decide)]

namespace IsNormal

variable {ext : List Char}

theorem trimDots_eq (h : IsNormal ext) : trimDots (String.ofList ext) = ext := by
  rw [trimDots, String.toList_ofList, List.dropWhile_eq_self_iff]
  intro hlength hdot
  apply h.head_ne_dot
  rw [List.head?_eq_getElem?, List.getElem?_eq_getElem hlength, eq_of_beq hdot]

theorem normalExtension_eq (h : IsNormal ext) : normalExtension (String.ofList ext) = ext := by
  rw [normalExtension, h.trimDots_eq]
  exact (List.map_congr_left fun c hc => if_neg (h.not_capital c hc)).trans ext.map_id'

theorem isExtension (h : IsNormal ext) : Config.isExtension (String.ofList ext) := by
  rw [isExtension_iff, h.trimDots_eq]
  exact ⟨h.ne_nil, h.slash_notMem, h.backslash_notMem, h.star_notMem⟩

end IsNormal

/-- The extensions by default are in normal form already. -/
theorem isNormal_of_mem_defaultExtensions : ∀ ext ∈ Settings.defaultExtensions.map String.toList, IsNormal ext := by
  have hall : ∀ ext ∈ Settings.defaultExtensions, isExtension ext ∧ normalExtension ext = ext.toList := by decide
  intro ext hext
  obtain ⟨text, htext, rfl⟩ := List.mem_map.1 hext
  obtain ⟨hextension, hnormal⟩ := hall text htext
  exact hnormal ▸ isNormal_normalExtension hextension

theorem Valid.isNormal_resolvedExtensions {c : Config} (h : c.Valid) : ∀ ext ∈ c.resolvedExtensions, IsNormal ext := by
  rw [resolvedExtensions]
  split
  · exact isNormal_of_mem_defaultExtensions
  · intro ext hext
    obtain ⟨text, htext, rfl⟩ := List.mem_map.1 hext
    exact isNormal_normalExtension (h.isExtension text htext)

theorem resolvedExtensions_ne_nil (c : Config) : c.resolvedExtensions ≠ [] := by
  rw [resolvedExtensions]
  split
  · decide
  · next hne => rwa [Ne, List.map_eq_nil_iff, ← List.isEmpty_iff]

/-! ## Other extensions -/

/-- A configuration with other extensions. -/
def withExtensions (c : Config) (exts : List (List Char)) : Config := { c with extensions := exts.map String.ofList }

section
variable {c : Config} {exts : List (List Char)}

theorem Valid.withExtensions (h : c.Valid) (hexts : ∀ ext ∈ exts, IsNormal ext) : (c.withExtensions exts).Valid where
  maxLines_ne_zero := h.maxLines_ne_zero
  top_ne_zero := h.top_ne_zero
  isExtension := List.forall_mem_map.2 fun ext hext => (hexts ext hext).isExtension
  isGlob_include := h.isGlob_include
  isGlob_exclude := h.isGlob_exclude

/-- Extensions in normal form are taken as they are. -/
theorem resolvedExtensions_withExtensions (hne : exts ≠ []) (hexts : ∀ ext ∈ exts, IsNormal ext) :
    (c.withExtensions exts).resolvedExtensions = exts := by
  have hidle : (exts.map String.ofList).map normalExtension = exts := by
    rw [List.map_map]
    exact (List.map_congr_left fun ext hext => (hexts ext hext).normalExtension_eq).trans exts.map_id'
  have hfull : ¬ (exts.map String.ofList).isEmpty := by
    rwa [List.isEmpty_iff, List.map_eq_nil_iff]
  exact (if_neg hfull).trans hidle

/-- Other extensions change nothing else. -/
theorem resolve_withExtensions {s : Settings} (hs : c.resolve = .ok s) (hne : exts ≠ [])
    (hexts : ∀ ext ∈ exts, IsNormal ext) :
    (c.withExtensions exts).resolve = .ok { s with extensions := exts } := by
  obtain ⟨hvalid, includes, excludes, hincludes, hexcludes, rfl⟩ := resolve_eq_ok_iff.1 hs
  refine resolve_eq_ok_iff.2 ⟨hvalid.withExtensions hexts, includes, excludes, hincludes, hexcludes, ?_⟩
  rw [settings, settings, resolvedExtensions_withExtensions hne hexts]
  rfl

end

/-! ## Main theorem -/

/-- A configuration has settings if it is valid and is refused for the first check that fails if not. Settings
keep to limits of at least 1 and to extensions in normal form, and any configuration that is valid but for its
extensions has these very extensions if it is given them. -/
theorem resolution_agrees_with_validation (c : Config) :
    ((∃ s, c.resolve = .ok s) ↔ c.validate = .ok ()) ∧
    (∀ f, c.resolve = .error f ↔ c.validate = .error f) ∧
    (c.validate = .ok () ↔ ∀ k ∈ c.checks, k.failure? = none) ∧
    (∀ f, c.validate = .error f ↔ ∃ before k after, c.checks = before ++ k :: after ∧ k.failure? = some f ∧
      ∀ x ∈ before, x.failure? = none) ∧
    ∀ s, c.resolve = .ok s →
      1 ≤ s.scan.maxLines ∧ (∀ n ∈ s.top, 1 ≤ n) ∧ s.extensions ≠ [] ∧ (∀ ext ∈ s.extensions, IsNormal ext) ∧
      (c.withExtensions s.extensions).resolve = .ok s ∧
      ∀ c' : Config, (c'.withExtensions []).validate = .ok () →
        (c'.withExtensions s.extensions).validate = .ok () ∧
        ∃ s', (c'.withExtensions s.extensions).resolve = .ok s' ∧ s'.extensions = s.extensions := by
  refine ⟨⟨?_, exists_resolve⟩, fun f => resolve_eq_error_iff, ?_, fun f => ?_, fun s hs => ?_⟩
  · rintro ⟨s, hs⟩
    exact validate_eq_ok_iff.2 (of_resolve hs).1
  · rw [validate_eq_verdict, verdict_eq_ok_iff]
  · rw [validate_eq_verdict, verdict_eq_error_iff]
  obtain ⟨hmax, htop⟩ := limits_of_resolve hs
  obtain ⟨hvalid, includes, excludes, rfl⟩ := of_resolve hs
  have hne := c.resolvedExtensions_ne_nil
  have hnormal := hvalid.isNormal_resolvedExtensions
  refine ⟨hmax, forall_one_le_iff.2 htop, hne, hnormal, resolve_withExtensions hs hne hnormal, fun c' hc' => ?_⟩
  obtain ⟨s', hs'⟩ := exists_resolve hc'
  have hresolve := resolve_withExtensions hs' hne hnormal
  exact ⟨validate_eq_ok_iff.2 (of_resolve hresolve).1, _, hresolve, rfl⟩

/-- Of an extension of dots, one with a slash and a pattern with an open bracket the first is reported. Without
them there are settings, and extensions can be taken from them. -/
theorem resolution_of_bad_extensions :
    let bad : Config := { maxLines := some 3, extensions := ["c", "..", "a/b"], excludes := ["["] }
    let good : Config := { maxLines := some 3, extensions := ["..H", "c.CC"] }
    bad.resolve = .error ⟨[], .invalidExtension ".."⟩ ∧
      ∃ s, good.resolve = .ok s ∧ 1 ≤ s.scan.maxLines ∧ (∀ ext ∈ s.extensions, IsNormal ext) ∧
        (good.withExtensions s.extensions).resolve = .ok s ∧
        ∃ s', (({} : Config).withExtensions s.extensions).resolve = .ok s' ∧ s'.extensions = s.extensions := by
  intro bad good
  obtain ⟨-, hfails, -, hfirst, -⟩ := resolution_agrees_with_validation bad
  obtain ⟨hresolves, -, -, -, hsettings⟩ := resolution_agrees_with_validation good
  obtain ⟨s, hs⟩ := hresolves.2 rfl
  obtain ⟨hmax, -, -, hnormal, hagain, hother⟩ := hsettings s hs
  refine ⟨?_, s, hs, hmax, hnormal, hagain, (hother {} rfl).2⟩
  rw [hfails, hfirst]
  exact ⟨[.maxLines 3, .extension "c"], .extension "..", [.extension "a/b", .excluded "["], rfl, rfl, by decide⟩

end Config

end BodyLength
