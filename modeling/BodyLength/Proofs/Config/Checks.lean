import BodyLength.Config.Settings
/-!
# The checks of a configuration

Validation goes over a configuration check by check and reports the first that fails
(`Config.validate_eq_verdict`). What all of them ask for together is `Config.Valid`.
-/

namespace BodyLength

namespace Config

/-! ## Checks -/

/-- Something that is looked at in a configuration. -/
inductive Check where
  | maxLines (n : UInt64)
  | top (n : UInt64)
  | extension (ext : String)
  | included (pattern : String)
  | excluded (pattern : String)

namespace Check

/-- A limit of 0 is refused. -/
def limitFailure? (cause : Cause) (n : UInt64) : Option Failure := if n = 0 then some ⟨[], cause⟩ else none

/-- A pattern is refused for what is wrong with it. -/
def globFailure? (attempt : String → Attempt) (pattern : String) : Option Failure :=
  match Glob.ofPattern pattern with
  | .error e => some ⟨[attempt pattern], .glob e⟩
  | .ok _ => none

/-- How a check fails. -/
def failure? : Check → Option Failure
  | maxLines n => limitFailure? .zeroMaxLines n
  | top n => limitFailure? .zeroTop n
  | extension ext =>
    if trimDots ext ≠ [] ∧ '/' ∉ trimDots ext ∧ '\\' ∉ trimDots ext ∧ '*' ∉ trimDots ext then none
    else some ⟨[], .invalidExtension ext⟩
  | included pattern => globFailure? .compileInclude pattern
  | excluded pattern => globFailure? .compileExclude pattern

end Check

/-- The checks of a configuration, in order. -/
def checks (c : Config) : List Check :=
  c.maxLines.toList.map .maxLines ++ (c.top.toList.map .top ++ (c.extensions.map .extension ++
    (c.includes.map .included ++ c.excludes.map .excluded)))

/-- What comes of checks: the first failure, if there is any. -/
def verdict (ks : List Check) : Except Failure Unit := (ks.findSome? Check.failure?).elim (.ok ()) .error

theorem verdict_cons (k : Check) (ks : List Check) :
    verdict (k :: ks) = match k.failure? with
      | some f => .error f
      | none => verdict ks := by
  rw [verdict, List.findSome?_cons]
  cases k.failure? <;> rfl

theorem verdict_append (ks ks' : List Check) : verdict (ks ++ ks') = verdict ks >>= fun _ => verdict ks' := by
  rw [verdict, verdict, List.findSome?_append]
  cases ks.findSome? Check.failure? <;> rfl

theorem verdict_eq_ok_iff {ks : List Check} : verdict ks = .ok () ↔ ∀ k ∈ ks, k.failure? = none := by
  rw [verdict, ← List.findSome?_eq_none_iff]
  cases ks.findSome? Check.failure? <;> simp

/-- The first check that fails is reported. -/
theorem verdict_eq_error_iff {ks : List Check} {f : Failure} : verdict ks = .error f ↔
    ∃ before k after, ks = before ++ k :: after ∧ k.failure? = some f ∧ ∀ x ∈ before, x.failure? = none := by
  rw [verdict, ← List.findSome?_eq_some_iff]
  cases ks.findSome? Check.failure? <;> simp

theorem isExtension_iff {ext : String} : isExtension ext ↔
    trimDots ext ≠ [] ∧ '/' ∉ trimDots ext ∧ '\\' ∉ trimDots ext ∧ '*' ∉ trimDots ext := by
  simp only [isExtension, Bool.and_eq_true, Bool.not_eq_true', List.isEmpty_eq_false_iff, List.all_eq_true,
    bne_iff_ne]
  refine and_congr_right fun _ => ⟨fun h => ?_, ?_⟩
  · exact ⟨fun hmem => (h _ hmem).1.1 rfl, fun hmem => (h _ hmem).1.2 rfl, fun hmem => (h _ hmem).2 rfl⟩
  · rintro ⟨hslash, hbackslash, hstar⟩ c hc
    refine ⟨⟨?_, ?_⟩, ?_⟩ <;> rintro rfl <;> contradiction

/-! ## Validation check by check -/

/-- A limit that may be missing is checked alike wherever it limits. -/
theorem verdict_limit (check : UInt64 → Check) {cause : Cause}
    (hcheck : ∀ n, (check n).failure? = Check.limitFailure? cause n) (limit : Option UInt64) :
    verdict (limit.toList.map check) = if limit = some 0 then .error ⟨[], cause⟩ else .ok () := by
  cases limit with
  | none => rfl
  | some n =>
    rw [Option.toList_some, List.map_singleton, verdict_cons, hcheck, Check.limitFailure?]
    by_cases hn : n = 0
    · rw [if_pos hn, if_pos (congrArg some hn)]
    · rw [if_neg hn, if_neg (mt Option.some.inj hn)]
      rfl

theorem checkExtensions_eq (exts : List String) : checkExtensions exts = verdict (exts.map .extension) := by
  induction exts with
  | nil => rfl
  | cons ext rest ih =>
    rw [checkExtensions, List.map_cons, verdict_cons, Check.failure?]
    by_cases hext : isExtension ext
    · rw [if_pos hext, if_pos (isExtension_iff.1 hext)]
      exact ih
    · rw [if_neg hext, if_neg (mt isExtension_iff.2 hext)]

/-- The patterns of a list are checked alike in both lists. -/
theorem checkGlobs_eq {attempt : String → Attempt} (check : String → Check)
    (hcheck : ∀ p, (check p).failure? = Check.globFailure? attempt p) (ps : List String) :
    checkGlobs attempt ps = verdict (ps.map check) := by
  induction ps with
  | nil => rfl
  | cons p rest ih =>
    rw [checkGlobs, List.map_cons, verdict_cons, hcheck, Check.globFailure?]
    cases Glob.ofPattern p with
    | error e => rfl
    | ok g => exact ih

/-- Validation goes over the checks in order. -/
theorem validate_eq_verdict (c : Config) : c.validate = verdict c.checks := by
  have hmax := verdict_limit .maxLines (fun _ => rfl) c.maxLines
  have htop := verdict_limit .top (fun _ => rfl) c.top
  have hincludes := checkGlobs_eq .included (fun _ => rfl) c.includes
  have hexcludes := checkGlobs_eq .excluded (fun _ => rfl) c.excludes
  rw [checks, verdict_append, verdict_append, verdict_append, verdict_append, hmax, htop, ← checkExtensions_eq,
    ← hincludes, ← hexcludes, validate]
  by_cases hzero : c.maxLines = some 0
  · rw [if_pos hzero, if_pos hzero]
    rfl
  by_cases hzero' : c.top = some 0
  · rw [if_neg hzero, if_neg hzero, if_pos hzero', if_pos hzero']
    rfl
  · rw [if_neg hzero, if_neg hzero, if_neg hzero', if_neg hzero']
    rfl

/-! ## Valid configurations -/

/-- Whether a pattern is that of a glob. -/
def IsGlob (pattern : String) : Prop := ∃ g, Glob.ofPattern pattern = .ok g

/-- What `validate` asks of a configuration. -/
structure Valid (c : Config) : Prop where
  maxLines_ne_zero : c.maxLines ≠ some 0
  top_ne_zero : c.top ≠ some 0
  isExtension : ∀ ext ∈ c.extensions, isExtension ext
  isGlob_include : ∀ p ∈ c.includes, IsGlob p
  isGlob_exclude : ∀ p ∈ c.excludes, IsGlob p

/-- A limit passes if it is missing or not 0. -/
theorem forall_limitFailure?_eq_none_iff {cause : Cause} {limit : Option UInt64} :
    (∀ n ∈ limit.toList, Check.limitFailure? cause n = none) ↔ limit ≠ some 0 := by
  cases limit with
  | none => simp
  | some n => simp [Check.limitFailure?]

theorem globFailure?_eq_none_iff {attempt : String → Attempt} {p : String} :
    Check.globFailure? attempt p = none ↔ IsGlob p := by
  rw [Check.globFailure?, IsGlob]
  cases Glob.ofPattern p <;> simp

theorem failure?_extension_eq_none_iff {ext : String} : (Check.extension ext).failure? = none ↔ isExtension ext := by
  rw [Check.failure?, isExtension_iff]
  split <;> simp_all

theorem validate_eq_ok_iff {c : Config} : c.validate = .ok () ↔ c.Valid := by
  have hmax : (∀ n ∈ c.maxLines.toList, (Check.maxLines n).failure? = none) ↔ _ := forall_limitFailure?_eq_none_iff
  have htop : (∀ n ∈ c.top.toList, (Check.top n).failure? = none) ↔ _ := forall_limitFailure?_eq_none_iff
  have hincluded (p : String) : (Check.included p).failure? = none ↔ IsGlob p := globFailure?_eq_none_iff
  have hexcluded (p : String) : (Check.excluded p).failure? = none ↔ IsGlob p := globFailure?_eq_none_iff
  rw [validate_eq_verdict, verdict_eq_ok_iff]
  simp only [checks, List.forall_mem_append, List.forall_mem_map, hmax, htop, failure?_extension_eq_none_iff,
    hincluded, hexcluded]
  constructor
  · rintro ⟨hmax, htop, hextensions, hincludes, hexcludes⟩
    exact ⟨hmax, htop, hextensions, hincludes, hexcludes⟩
  · exact fun h => ⟨h.maxLines_ne_zero, h.top_ne_zero, h.isExtension, h.isGlob_include, h.isGlob_exclude⟩

end Config

end BodyLength
