import BodyLength.Proofs.Config.Checks
import BodyLength.Proofs.Json.Decode
/-!
# Which configurations are accepted

`Config.validate` goes over a configuration to look for something wrong, and `Config.resolve` once more to
make settings of it. What the first accepts the second never refuses (`exists_resolve`), and what the
settings take over from the configuration is what was checked (`of_resolve`).
-/

namespace BodyLength

/-! ## Limits -/

theorem one_le_iff_ne_zero {n : UInt64} : 1 ≤ n ↔ n ≠ 0 := by
  rw [← UInt64.pos_iff_ne_zero, UInt64.le_iff_toNat_le, UInt64.lt_iff_toNat_lt]
  rfl

/-- A limit is missing or at least 1 if and only if it is not 0. -/
theorem forall_one_le_iff {limit : Option UInt64} : (∀ n ∈ limit, 1 ≤ n) ↔ limit ≠ some 0 := by
  cases limit with
  | none => simp
  | some n => simp [one_le_iff_ne_zero]

theorem one_le_getD {limit : Option UInt64} (h : limit ≠ some 0) {n : UInt64} (hn : 1 ≤ n) : 1 ≤ limit.getD n := by
  cases limit with
  | none => exact hn
  | some k => exact forall_one_le_iff.2 h k rfl

namespace Config

/-! ## What can fail -/

theorem exists_compileGlobs {ps : List String} (h : ∀ p ∈ ps, IsGlob p) : ∃ gs, compileGlobs ps = .ok gs := by
  induction ps with
  | nil => exact ⟨[], rfl⟩
  | cons p rest ih =>
    obtain ⟨⟨g, hg⟩, hrest⟩ := List.forall_mem_cons.1 h
    obtain ⟨gs, hgs⟩ := ih hrest
    refine ⟨g :: gs, ?_⟩
    rw [compileGlobs, hg]
    simp only [hgs]
    rfl

/-- The globs of which a file must match one, if there are any. -/
def compileIncludes (c : Config) : Except Failure (Option (List Glob)) :=
  if c.includes.isEmpty then .ok none else (compileGlobs c.includes).map some

/-- The patterns that exclude files. -/
def excludePatterns (c : Config) : List String :=
  if c.excludes.isEmpty then Settings.defaultExcludes else c.excludes

/-- The extensions of the files to scan. -/
def resolvedExtensions (c : Config) : List (List Char) :=
  if c.extensions.isEmpty then Settings.defaultExtensions.map String.toList
  else c.extensions.map normalExtension

/-- The settings of a configuration with its globs compiled. -/
def settings (c : Config) (includes : Option (List Glob)) (excludes : List Glob) : Settings where
  includes
  excludes
  extensions := c.resolvedExtensions
  scan := c.scanOptions
  palette := c.palette
  warningsOnly := c.warningsOnly.getD false
  minLines := c.minLines
  top := c.top
  source := none

/-- What can fail in a resolution, in order. -/
theorem resolve_eq (c : Config) : c.resolve = c.validate >>= fun _ => c.compileIncludes >>= fun includes =>
    compileGlobs c.excludePatterns >>= fun excludes => .ok (c.settings includes excludes) := by
  rw [resolve, compileIncludes]
  cases c.includes.isEmpty <;> rfl

theorem isGlob_of_mem_defaultExcludes : ∀ p ∈ Settings.defaultExcludes, IsGlob p := by
  have hall : ∀ p ∈ Settings.defaultExcludes, (Glob.ofPattern p).toOption.isSome := by decide +kernel
  intro p hp
  obtain ⟨g, hg⟩ := Option.isSome_iff_exists.1 (hall p hp)
  exact ⟨g, eq_ok_of_toOption hg⟩

theorem Valid.isGlob_excludePatterns {c : Config} (h : c.Valid) : ∀ p ∈ c.excludePatterns, IsGlob p := by
  rw [excludePatterns]
  split
  · exact isGlob_of_mem_defaultExcludes
  · exact h.isGlob_exclude

/-- What is accepted has settings. -/
theorem exists_resolve {c : Config} (h : c.validate = .ok ()) : ∃ s, c.resolve = .ok s := by
  have hvalid := validate_eq_ok_iff.1 h
  obtain ⟨gs, hgs⟩ := exists_compileGlobs hvalid.isGlob_include
  obtain ⟨excludes, hexcludes⟩ := exists_compileGlobs hvalid.isGlob_excludePatterns
  obtain ⟨includes, hincludes⟩ : ∃ includes, c.compileIncludes = .ok includes := by
    rw [compileIncludes, hgs]
    split
    · exact ⟨none, rfl⟩
    · exact ⟨some gs, rfl⟩
  refine ⟨c.settings includes excludes, ?_⟩
  rw [resolve_eq, h, hincludes, hexcludes]
  rfl

/-- Settings are refused for what is wrong with their configuration. -/
theorem resolve_eq_error_iff {c : Config} {f : Failure} : c.resolve = .error f ↔ c.validate = .error f := by
  cases h : c.validate with
  | error f' =>
    have hfails : c.resolve = .error f' := by rw [resolve_eq, h]; rfl
    rw [hfails, Except.error.injEq, Except.error.injEq]
  | ok =>
    obtain ⟨s, hs⟩ := exists_resolve h
    rw [hs]
    exact ⟨nofun, nofun⟩

theorem resolve_eq_ok_iff {c : Config} {s : Settings} : c.resolve = .ok s ↔ c.Valid ∧ ∃ includes excludes,
    c.compileIncludes = .ok includes ∧ compileGlobs c.excludePatterns = .ok excludes ∧
      s = c.settings includes excludes := by
  rw [resolve_eq, ← validate_eq_ok_iff]
  constructor
  · intro h
    obtain ⟨_, hvalid, h⟩ := bind_eq_ok h
    obtain ⟨includes, hincludes, h⟩ := bind_eq_ok h
    obtain ⟨excludes, hexcludes, h⟩ := bind_eq_ok h
    cases h
    exact ⟨hvalid, includes, excludes, hincludes, hexcludes, rfl⟩
  · rintro ⟨hvalid, includes, excludes, hincludes, hexcludes, rfl⟩
    rw [hvalid, hincludes, hexcludes]
    rfl

/-- Settings come from a configuration that is accepted, and only its globs are changed. -/
theorem of_resolve {c : Config} {s : Settings} (h : c.resolve = .ok s) :
    c.Valid ∧ ∃ includes excludes, s = c.settings includes excludes := by
  obtain ⟨hvalid, includes, excludes, -, -, rfl⟩ := resolve_eq_ok_iff.1 h
  exact ⟨hvalid, includes, excludes, rfl⟩

/-- The limits of settings are at least 1. -/
theorem limits_of_resolve {c : Config} {s : Settings} (h : c.resolve = .ok s) :
    1 ≤ s.scan.maxLines ∧ s.top ≠ some 0 := by
  obtain ⟨hvalid, includes, excludes, rfl⟩ := of_resolve h
  exact ⟨one_le_getD hvalid.maxLines_ne_zero (by decide), hvalid.top_ne_zero⟩

end Config

end BodyLength
