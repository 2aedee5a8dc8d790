import BodyLength.Proofs.CommandLine.FrontEnds
/-!
# The limits in force

A threshold and a number of results can come from the command line, from a configuration or from the
defaults. A configuration is only taken with limits of at least 1 (`Config.limits_of_settingsFor`), and so is
a threshold of the command line (`ScanFlags.of_override`). A number of results of the command line is taken
as it is, so it is the one way to a limit of 0 (`ScanFlags.top_selection_eq_zero_iff`).
-/

namespace BodyLength

namespace ScanFlags

variable {f : ScanFlags} {s s' : Settings}

/-- The command line only changes how texts are scanned, and no threshold of 0 gets through. -/
theorem of_override (h : f.override s = .ok s') : f.maxLines ≠ some 0 ∧
    s'.scan.maxLines = f.maxLines.getD s.scan.maxLines ∧ s' = { s with scan := s'.scan } := by
  rw [override] at h
  split at h
  · cases h
  · next hmax =>
    cases h
    exact ⟨hmax, rfl, rfl⟩

/-- The number of results of the command line wins, also if it is 0. -/
theorem top_selection_eq_zero_iff (h : s.top ≠ some 0) : (f.selection s).top = some 0 ↔ f.top = some 0 := by
  rw [selection]
  cases f.top with
  | none => simpa using h
  | some n => rfl

end ScanFlags

namespace ScanRun

variable {d : Disk} {stdin : List UInt8} {path : FilePath} {flags : ScanFlags} {loaded s : Settings}
  {notes notes' : List LogEvent} {run : ScanRun}

/-- What has to go well for a scan to come to its output. -/
theorem ofPath_eq_ok_iff : ofPath d stdin path flags = (notes, .ok run) ↔
    (path = stdinPath ∨ d.exists? path) ∧ ∃ loaded warnings s more,
      Config.settingsFor d (configRoot d path) flags.config = .ok (loaded, warnings) ∧
      flags.override loaded = .ok s ∧
      ofSettings d stdin path s (flags.selection s) = .ok (run, more) ∧ notes = warnings ++ more := by
  have hfound : ¬ (path ≠ stdinPath ∧ !d.exists? path) ↔ path = stdinPath ∨ d.exists? path := by
    rw [Classical.not_and_iff_not_or_not, Classical.not_not, Bool.not_eq_true', Bool.not_eq_false]
  rw [← hfound, ofPath]
  constructor
  · intro h
    split at h
    · cases h
    next hpath =>
    split at h
    · cases h
    next loaded warnings hload =>
    split at h
    · cases h
    next s hover =>
    split at h
    · cases h
    next run more hsettings =>
    cases h
    exact ⟨hpath, loaded, warnings, s, more, hload, hover, hsettings, rfl⟩
  · rintro ⟨hpath, loaded, warnings, s, more, hload, hover, hsettings, rfl⟩
    rw [if_neg hpath]
    simp only [hload, hover, hsettings]

/-- A scan goes by the settings with the options of the command line in their place. -/
theorem of_ofPath (hload : Config.settingsFor d (configRoot d path) flags.config = .ok (loaded, notes))
    (hover : flags.override loaded = .ok s) (hrun : ofPath d stdin path flags = (notes', .ok run)) :
    run.settings = s ∧ run.selection = flags.selection s := by
  obtain ⟨-, loaded', warnings, s', more, hload', hover', hsettings, -⟩ := ofPath_eq_ok_iff.1 hrun
  obtain ⟨rfl, rfl⟩ := Prod.mk.inj (Except.ok.inj (hload.symm.trans hload'))
  obtain rfl := Except.ok.inj (hover.symm.trans hover')
  exact of_ofSettings hsettings

end ScanRun

/-! ## Main theorem -/

/-- Whatever configurations and the command line say, texts are scanned for a threshold of at least 1. The
number of results is missing or at least 1, unless the command line gives 0 for it. These limits are the ones
that a scan goes by. -/
theorem effective_limits {d : Disk} {path : FilePath} {flags : ScanFlags} {loaded s : Settings}
    {notes : List LogEvent}
    (hload : Config.settingsFor d (ScanRun.configRoot d path) flags.config = .ok (loaded, notes))
    (hover : flags.override loaded = .ok s) :
    1 ≤ s.scan.maxLines ∧ ((∀ n ∈ (flags.selection s).top, 1 ≤ n) ↔ flags.top ≠ some 0) ∧
      ∀ stdin notes' run, ScanRun.ofPath d stdin path flags = (notes', .ok run) →
        run.settings = s ∧ run.selection = flags.selection s := by
  obtain ⟨hloaded, htop⟩ := Config.limits_of_settingsFor hload
  obtain ⟨hflag, hmax, hs⟩ := ScanFlags.of_override hover
  refine ⟨?_, ?_, fun stdin notes' run => ScanRun.of_ofPath hload hover⟩
  · rw [hmax]
    exact one_le_getD hflag hloaded
  · have htop' : s.top ≠ some 0 := by rwa [hs]
    rw [forall_one_le_iff, Ne, Ne, ScanFlags.top_selection_eq_zero_iff htop']

/-- A configuration that sets both limits. -/
def limitsText : String := "\x7b\"max_lines\": 3, \"top\": 2\x7d"

/-- A directory with that configuration in a file. -/
def configured : Disk := { root := .dir [(bytes "c.json", .file (bytes limitsText))] }

theorem load_configured : Config.load configured (bytes "c.json") = .ok { maxLines := some 3, top := some 2 } := by
  have hfile : configured.find (bytes "c.json") = .ok (.file (bytes limitsText)) := by
    rw [Disk.find_from_root rfl rfl (by decide +kernel)]
    rfl
  have hparse : Config.parse limitsText = .ok { maxLines := some 3, top := some 2 } :=
    eq_ok_of_toOption (by decide +kernel)
  exact Config.load_of_file hfile hparse rfl

theorem settingsFor_configured (root : FilePath) :
    ∃ s, Config.settingsFor configured root (some (bytes "c.json")) = .ok (s, []) ∧ s.top = some 2 := by
  obtain ⟨s, hs⟩ := Config.exists_resolve (show Config.validate { maxLines := some 3, top := some 2 } = .ok () from rfl)
  have hload : Config.loadFor configured root (some (bytes "c.json")) =
      .ok ({ maxLines := some 3, top := some 2 }, some (bytes "c.json")) := by
    rw [Config.loadFor_some, load_configured]
    rfl
  refine ⟨_, Config.settingsFor_eq_ok_iff.2 ⟨_, _, s, hload, hs, rfl, rfl⟩, ?_⟩
  obtain ⟨-, includes, excludes, rfl⟩ := Config.of_resolve hs
  rfl

/-- A threshold of the command line with a number of results from a file. -/
theorem effective_limits_of_file :
    let flags : ScanFlags := { maxLines := some 5, config := some (bytes "c.json") }
    ∃ loaded s,
      Config.settingsFor configured (ScanRun.configRoot configured (bytes "src")) flags.config = .ok (loaded, []) ∧
      flags.override loaded = .ok s ∧ s.scan.maxLines = 5 ∧ (flags.selection s).top = some 2 ∧ flags.top ≠ some 0 ∧
      1 ≤ s.scan.maxLines ∧ ∀ n ∈ (flags.selection s).top, 1 ≤ n := by
  intro flags
  obtain ⟨loaded, hload, htwo⟩ := settingsFor_configured (ScanRun.configRoot configured (bytes "src"))
  obtain ⟨s, hover⟩ : ∃ s, flags.override loaded = .ok s := ⟨_, rfl⟩
  obtain ⟨hmax, htop, -⟩ := effective_limits hload hover
  obtain ⟨-, hfive, hs⟩ := ScanFlags.of_override hover
  have htwo' : (flags.selection s).top = some 2 := by
    rw [hs]
    exact htwo
  have hflag : flags.top ≠ some 0 := by decide
  exact ⟨loaded, s, hload, hover, hfive, htwo', hflag, hmax, htop.2 hflag⟩

/-- A command line that asks for no results at all is taken at its word. -/
theorem top_zero_accepted :
    let flags : ScanFlags := { top := some 0, lenientBraces := true }
    Command.ofArguments ["scan", "a.c", "--top", "0", "--lenient-braces"] =
        some (.scan (bytes "a.c") flags) ∧
      ∃ loaded s,
        Config.settingsFor loneFile (ScanRun.configRoot loneFile (bytes "a.c")) flags.config = .ok (loaded, []) ∧
        flags.override loaded = .ok s ∧ (flags.selection s).top = some 0 := by
  intro flags
  obtain ⟨loaded, hload⟩ := settingsFor_loneFile
  rw [← configRoot_loneFile] at hload
  obtain ⟨s, hover⟩ : ∃ s, flags.override loaded = .ok s := ⟨_, rfl⟩
  exact ⟨by decide +kernel, loaded, s, hload, hover, rfl⟩

end BodyLength
