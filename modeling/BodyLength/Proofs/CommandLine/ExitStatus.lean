import BodyLength.Proofs.CommandLine.Limits
import BodyLength.Proofs.Files.Isolation
import BodyLength.Proofs.Files.Sources
import BodyLength.Proofs.Report.Threshold
/-!
# When a scan fails on warnings

The verdict on a scan is taken from everything that was found in the texts it scans (`ScanRun.Scans`), not from
what of it is shown. So with warnings that make it fail, a scan fails if and only if one of the texts has a
body above the threshold in force (`ScanRun.anyWarning_iff`), and how its results are filtered, sorted, cut off
and printed makes no difference.
-/

namespace BodyLength

theorem report_analyzeText (file text : String) (options : ScanOptions) :
    (analyzeText file text options).map Entry.report = scan text options := by
  rw [analyzeText, List.map_map]
  exact List.map_id _

/-- How texts are scanned: the command line wins over the configuration, and the threshold is 25 if neither
gives one. -/
def ScanFlags.effectiveOptions (f : ScanFlags) (c : Config) : ScanOptions where
  maxLines := f.maxLines.getD (c.maxLines.getD 25)
  bracePlacement := if f.lenientBraces || c.lenientBraces.getD false then .lenient else .nextLine
  signatureMode :=
    if f.literalAwareSignatures || c.literalAwareSignatures.getD false then .literalAware else .baseline

/-- The globs and extensions of a configuration choose the files. -/
theorem Config.filter_congr {c c' : Config} {s s' : Settings} (hs : c.resolve = .ok s)
    (hs' : c'.resolve = .ok s') (hincludes : c.includes = c'.includes) (hexcludes : c.excludes = c'.excludes)
    (hextensions : c.extensions = c'.extensions) : s.filter = s'.filter := by
  obtain ⟨-, includes, excludes, hi, he, rfl⟩ := resolve_eq_ok_iff.1 hs
  obtain ⟨-, includes', excludes', hi', he', rfl⟩ := resolve_eq_ok_iff.1 hs'
  rw [compileIncludes, hincludes] at hi
  rw [excludePatterns, hexcludes] at he
  obtain rfl := Except.ok.inj (hi.symm.trans hi')
  obtain rfl := Except.ok.inj (he.symm.trans he')
  have hresolved : c.resolvedExtensions = c'.resolvedExtensions := by
    rw [resolvedExtensions, resolvedExtensions, hextensions]
  simp only [Settings.filter, Config.settings, hresolved]

namespace ScanRun

/-- Whether a text is scanned: that of the standard input, or of a file of the path that can be read. -/
inductive Scans (d : Disk) (stdin : List UInt8) (path : FilePath) (s : Settings) (text : String) : Prop where
  | input (hpath : path = stdinPath) (htext : stdin = bytes text)
  | file {files : List FilePath} {file : FilePath} (hpath : path ≠ stdinPath)
      (hfiles : d.collect s.filter path = .ok files) (hmem : file ∈ files) (htext : d.readText file = .ok text)

variable {d : Disk} {stdin : List UInt8} {path : FilePath} {text : String} {s s' : Settings} {selection : Selection}
  {flags : ScanFlags} {run : ScanRun} {notes : List LogEvent}

theorem scans_stdin_iff : Scans d stdin stdinPath s text ↔ text? stdin = some text := by
  rw [text?_eq_some_iff]
  constructor
  · rintro (⟨-, htext⟩ | ⟨hpath, -, -, -⟩)
    · exact htext
    · exact absurd rfl hpath
  · exact .input rfl

theorem scans_iff_of_ne (hpath : path ≠ stdinPath) {files : List FilePath}
    (hfiles : d.collect s.filter path = .ok files) :
    Scans d stdin path s text ↔ ∃ file ∈ files, d.readText file = .ok text := by
  constructor
  · rintro (⟨hstdin, -⟩ | ⟨-, hfiles', hmem, htext⟩)
    · exact absurd hstdin hpath
    · obtain rfl := Except.ok.inj (hfiles.symm.trans hfiles')
      exact ⟨_, hmem, htext⟩
  · rintro ⟨file, hmem, htext⟩
    exact .file hpath hfiles hmem htext

theorem scans_iff_of_file (hpath : path ≠ stdinPath) {content : String}
    (hfile : d.find path = .ok (.file (bytes content))) : Scans d stdin path s text ↔ text = content := by
  rw [scans_iff_of_ne hpath (collect_of_file hfile s.filter)]
  simp only [List.mem_singleton, exists_eq_left, Disk.readText_eq_ok_iff.2 hfile, Except.ok.injEq]
  exact eq_comm

theorem scans_congr (h : s.filter = s'.filter) : Scans d stdin path s text ↔ Scans d stdin path s' text := by
  constructor
  · rintro (⟨hpath, htext⟩ | ⟨hpath, hfiles, hmem, htext⟩)
    · exact .input hpath htext
    · exact .file hpath (h ▸ hfiles) hmem htext
  · rintro (⟨hpath, htext⟩ | ⟨hpath, hfiles, hmem, htext⟩)
    · exact .input hpath htext
    · exact .file hpath (h ▸ hfiles) hmem htext

/-- What is found are the functions of the texts that are scanned. -/
theorem mem_reports_iff (h : ofSettings d stdin path s selection = .ok (run, notes)) {r : FunctionReport} :
    (∃ e ∈ run.entries, e.report = r) ↔ ∃ text, Scans d stdin path s text ∧ r ∈ scan text s.scan := by
  have hreport (file text : String) : (∃ e ∈ analyzeText file text s.scan, e.report = r) ↔ r ∈ scan text s.scan := by
    rw [← report_analyzeText file, List.mem_map]
  by_cases hpath : path = stdinPath
  · subst hpath
    rw [ofSettings, if_pos rfl, readInput] at h
    cases hstdin : text? stdin with
    | none =>
      rw [hstdin] at h
      cases h
    | some input =>
      rw [hstdin] at h
      cases h
      simp only [hreport, scans_stdin_iff, hstdin, Option.some.injEq, exists_eq_left']
  · rw [ofSettings, if_neg hpath, readFiles_eq, analyzePath] at h
    cases hfiles : d.collect s.filter path with
    | error failure =>
      rw [hfiles] at h
      cases h
    | ok files =>
    rw [hfiles] at h
    cases h
    simp only [Analysis.ofFiles_eq, scans_iff_of_ne hpath hfiles, List.mem_flatMap]
    constructor
    · rintro ⟨e, ⟨⟨file, text⟩, hfile, he⟩, hr⟩
      exact ⟨text, ⟨file, Disk.mem_readable_iff.1 hfile⟩, (hreport _ _).1 ⟨e, he, hr⟩⟩
    · rintro ⟨text, ⟨file, hfile⟩, hr⟩
      obtain ⟨e, he, hr⟩ := (hreport (Path.display file) text).2 hr
      exact ⟨e, ⟨⟨file, text⟩, Disk.mem_readable_iff.2 hfile, he⟩, hr⟩

/-- There is a warning if and only if a function of a text that is scanned has more lines than the threshold. -/
theorem anyWarning_iff (h : ofSettings d stdin path s selection = .ok (run, notes)) : run.anyWarning ↔
    ∃ text, Scans d stdin path s text ∧ ∃ r ∈ scan text s.scan, s.scan.maxLines < r.lineCount := by
  rw [anyWarning, List.any_eq_true]
  constructor
  · rintro ⟨e, he, hwarning⟩
    obtain ⟨text, htext, hr⟩ := (mem_reports_iff h).1 ⟨e, he, rfl⟩
    exact ⟨text, htext, e.report, hr, (isWarning_iff_of_mem_scan hr).1 hwarning⟩
  · rintro ⟨text, htext, r, hr, hlong⟩
    obtain ⟨e, he, rfl⟩ := (mem_reports_iff h).2 ⟨text, htext, hr⟩
    exact ⟨e, he, (isWarning_iff_of_mem_scan hr).2 hlong⟩

/-- A scan goes by the settings of a configuration, but for how it scans texts. -/
theorem settings_of_ofPath (h : ofPath d stdin path flags = (notes, .ok run)) : ∃ c source resolved,
    Config.loadFor d (configRoot d path) flags.config = .ok (c, source) ∧ c.resolve = .ok resolved ∧
      run.settings = { resolved with source, scan := flags.effectiveOptions c } := by
  obtain ⟨-, loaded, warnings, s, more, hload, hover, hrun, -⟩ := ofPath_eq_ok_iff.1 h
  obtain ⟨c, source, resolved, hloadFor, hresolve, rfl, -⟩ := Config.settingsFor_eq_ok_iff.1 hload
  refine ⟨c, source, resolved, hloadFor, hresolve, ?_⟩
  obtain ⟨-, includes, excludes, -, -, rfl⟩ := Config.resolve_eq_ok_iff.1 hresolve
  have hscan : s.scan = flags.effectiveOptions c := by
    rw [ScanFlags.override] at hover
    split at hover
    · cases hover
    · cases hover
      simp only [ScanFlags.effectiveOptions, Config.settings, Config.scanOptions, Bool.or_eq_true, ite_or]
  rw [(of_ofSettings hrun).1, (ScanFlags.of_override hover).2.2, hscan]

/-- What is shown of it does not matter for what is found. -/
theorem ofSettings_selection (h : ofSettings d stdin path s selection = .ok (run, notes)) (other : Selection) :
    ofSettings d stdin path s other = .ok ({ run with selection := other }, notes) := by
  rw [ofSettings] at h ⊢
  split at h
  · next hpath =>
    rw [if_pos hpath]
    cases hinput : readInput stdin s with
    | error e =>
      rw [hinput] at h
      cases h
    | ok entries =>
      rw [hinput] at h
      cases h
      rfl
  · next hpath =>
    rw [if_neg hpath]
    obtain ⟨r, hr, hrun⟩ := bind_eq_ok h
    cases hrun
    rw [hr]
    rfl

theorem exit_runScan (h : ofPath d stdin path flags = (notes, .ok run)) :
    (Command.run d stdin (.scan path flags)).exit = if flags.failOnWarning && run.anyWarning then 1 else 0 := by
  simp only [Command.run, Command.runScan, h]

theorem exit_eq_one_iff (h : ofPath d stdin path flags = (notes, .ok run)) :
    (Command.run d stdin (.scan path flags)).exit = 1 ↔ flags.failOnWarning ∧
      ∃ text, Scans d stdin path run.settings text ∧
        ∃ r ∈ scan text run.settings.scan, run.settings.scan.maxLines < r.lineCount := by
  obtain ⟨-, loaded, warnings, s, more, -, -, hrun, -⟩ := ofPath_eq_ok_iff.1 h
  rw [exit_runScan h, (of_ofSettings hrun).1, ← anyWarning_iff hrun, ← Bool.and_eq_true]
  split
  · next hfail => exact iff_of_true rfl hfail
  · next hpass => exact iff_of_false (by decide) hpass

theorem exit_eq_zero_iff (h : ofPath d stdin path flags = (notes, .ok run)) :
    (Command.run d stdin (.scan path flags)).exit = 0 ↔ (Command.run d stdin (.scan path flags)).exit ≠ 1 := by
  rw [exit_runScan h]
  split <;> decide

/-- Two scans of the same texts in the same way have the same exit status. -/
theorem exit_congr {d' : Disk} {flags' : ScanFlags} {run' : ScanRun} {notes' : List LogEvent}
    (h : ofPath d stdin path flags = (notes, .ok run)) (h' : ofPath d' stdin path flags' = (notes', .ok run'))
    (hfail : flags'.failOnWarning = flags.failOnWarning) (hscan : run'.settings.scan = run.settings.scan)
    (htexts : ∀ text, Scans d' stdin path run'.settings text ↔ Scans d stdin path run.settings text) :
    (Command.run d' stdin (.scan path flags')).exit = (Command.run d stdin (.scan path flags)).exit := by
  have hone : (Command.run d' stdin (.scan path flags')).exit = 1 ↔
      (Command.run d stdin (.scan path flags)).exit = 1 := by
    simp only [exit_eq_one_iff h, exit_eq_one_iff h', hfail, hscan, htexts]
  by_cases hexit : (Command.run d stdin (.scan path flags)).exit = 1
  · rw [hexit, hone.2 hexit]
  · rw [(exit_eq_zero_iff h).2 hexit, (exit_eq_zero_iff h').2 (mt hone.1 hexit)]

/-! ## What is shown -/

/-- Other options for what to show change nothing in a scan but its selection. -/
theorem ofPath_otherwise_shown (h : ofPath d stdin path flags = (notes, .ok run)) {flags' : ScanFlags}
    (hflags : flags' = { flags with
      format := flags'.format, order := flags'.order, top := flags'.top, minLines := flags'.minLines
      warningsOnly := flags'.warningsOnly }) :
    ∃ other, ofPath d stdin path flags' = (notes, .ok { run with selection := other }) := by
  obtain ⟨hfound, loaded, warnings, s, more, hload, hover, hrun, rfl⟩ := ofPath_eq_ok_iff.1 h
  refine ⟨flags'.selection s, ?_⟩
  rw [ofPath_eq_ok_iff, hflags]
  exact ⟨hfound, loaded, warnings, s, more, hload, hover, ofSettings_selection hrun _, rfl⟩

/-- Options of the command line and fields of a configuration that only say what to show change neither how
texts are scanned nor which files. -/
theorem settings_otherwise_shown {d' : Disk} {flags' : ScanFlags} {run' : ScanRun} {notes' : List LogEvent}
    {c c' : Config} {source source' : Option FilePath} (h : ofPath d stdin path flags = (notes, .ok run))
    (h' : ofPath d' stdin path flags' = (notes', .ok run'))
    (hload : Config.loadFor d (configRoot d path) flags.config = .ok (c, source))
    (hload' : Config.loadFor d' (configRoot d' path) flags'.config = .ok (c', source'))
    (hflags : flags' = { flags with
      format := flags'.format, order := flags'.order, top := flags'.top, minLines := flags'.minLines
      warningsOnly := flags'.warningsOnly, config := flags'.config })
    (hc : c' = { c with top := c'.top, minLines := c'.minLines, warningsOnly := c'.warningsOnly }) :
    run'.settings.scan = run.settings.scan ∧ run'.settings.filter = run.settings.filter := by
  obtain ⟨_, _, resolved, hloaded, hresolve, hsettings⟩ := settings_of_ofPath h
  obtain ⟨rfl, rfl⟩ := Prod.mk.inj (Except.ok.inj (hload.symm.trans hloaded))
  obtain ⟨_, _, resolved', hloaded', hresolve', hsettings'⟩ := settings_of_ofPath h'
  obtain ⟨rfl, rfl⟩ := Prod.mk.inj (Except.ok.inj (hload'.symm.trans hloaded'))
  have hsame := Config.filter_congr hresolve' hresolve (by rw [hc]) (by rw [hc]) (by rw [hc])
  rw [hsettings, hsettings']
  refine ⟨?_, hsame⟩
  rw [hflags, hc]
  rfl

end ScanRun

/-! ## Main theorem -/

/-- A scan that comes to its output has the exit status 1 if it is to fail on warnings and one of the texts it
scans has a function with more lines than the threshold, and else 0. So other options for what to show and how,
on the command line or in a configuration, leave the exit status as it is. -/
theorem exit_by_what_is_found {d : Disk} {stdin : List UInt8} {path : FilePath} {flags : ScanFlags} {run : ScanRun}
    {notes : List LogEvent} (h : ScanRun.ofPath d stdin path flags = (notes, .ok run)) :
    ∃ c source, Config.loadFor d (ScanRun.configRoot d path) flags.config = .ok (c, source) ∧
      let options := flags.effectiveOptions c
      let result := Command.run d stdin (.scan path flags)
      (result.exit = 1 ↔ flags.failOnWarning ∧ ∃ text, ScanRun.Scans d stdin path run.settings text ∧
        ∃ r ∈ scan text options, options.maxLines < r.lineCount) ∧
      (result.exit = 0 ↔ result.exit ≠ 1) ∧
      (∀ flags' : ScanFlags,
        flags' = { flags with
          format := flags'.format, order := flags'.order, top := flags'.top, minLines := flags'.minLines
          warningsOnly := flags'.warningsOnly } →
        (∃ run', ScanRun.ofPath d stdin path flags' = (notes, .ok run')) ∧
          (Command.run d stdin (.scan path flags')).exit = result.exit) ∧
      ∀ (d' : Disk) (flags' : ScanFlags) (c' : Config) source' notes' run',
        ScanRun.ofPath d' stdin path flags' = (notes', .ok run') →
        Config.loadFor d' (ScanRun.configRoot d' path) flags'.config = .ok (c', source') →
        flags' = { flags with
          format := flags'.format, order := flags'.order, top := flags'.top, minLines := flags'.minLines
          warningsOnly := flags'.warningsOnly, config := flags'.config } →
        c' = { c with top := c'.top, minLines := c'.minLines, warningsOnly := c'.warningsOnly } →
        (∀ text, ScanRun.Scans d' stdin path run.settings text ↔ ScanRun.Scans d stdin path run.settings text) →
        (Command.run d' stdin (.scan path flags')).exit = result.exit := by
  obtain ⟨c, source, resolved, hload, -, hsettings⟩ := ScanRun.settings_of_ofPath h
  have hscan : run.settings.scan = flags.effectiveOptions c := by rw [hsettings]
  refine ⟨c, source, hload, ?_, ScanRun.exit_eq_zero_iff h, ?_, ?_⟩
  · rw [← hscan]
    exact ScanRun.exit_eq_one_iff h
  · intro flags' hflags
    obtain ⟨other, h'⟩ := ScanRun.ofPath_otherwise_shown h hflags
    refine ⟨⟨_, h'⟩, ScanRun.exit_congr h h' ?_ rfl fun text => Iff.rfl⟩
    rw [hflags]
  · intro d' flags' c' source' notes' run' h' hload' hflags hc htexts
    obtain ⟨hscan', hsame⟩ := ScanRun.settings_otherwise_shown h h' hload hload' hflags hc
    refine ScanRun.exit_congr h h' (by rw [hflags]) hscan' fun text => ?_
    rw [ScanRun.scans_congr hsame, htexts text]

/-- A text with a body of two lines. -/
def twoLines : String := "f()\n\x7b\n\n\n\x7d"

/-- A directory with that text and a configuration. -/
def gate (config : String) : Disk where
  root := .dir [(bytes "a.c", .file (bytes twoLines)), (bytes "c.json", .file (bytes config))]

theorem find_gate (config : String) : (gate config).find (bytes "a.c") = .ok (.file (bytes twoLines)) ∧
    (gate config).find (bytes "c.json") = .ok (.file (bytes config)) := by
  constructor
  · rw [Disk.find_from_root rfl rfl (by decide +kernel)]
    rfl
  · rw [Disk.find_from_root rfl rfl (by decide +kernel)]
    rfl

theorem exists_ofPath_gate {config : String} {c : Config} {flags : ScanFlags}
    (hparse : Config.parse config = .ok c) (hvalid : c.validate = .ok ()) (hconfig : flags.config = some (bytes "c.json"))
    (hmax : flags.maxLines = none) :
    Config.loadFor (gate config) (ScanRun.configRoot (gate config) (bytes "a.c")) flags.config = .ok (c, some (bytes "c.json")) ∧
      ∃ notes run, ScanRun.ofPath (gate config) [] (bytes "a.c") flags = (notes, .ok run) ∧
        run.selection.top = (flags.top <|> c.top) := by
  obtain ⟨hfile, hjson⟩ := find_gate config
  have hload : Config.loadFor (gate config) (ScanRun.configRoot (gate config) (bytes "a.c")) flags.config =
      .ok (c, some (bytes "c.json")) := by
    rw [hconfig, Config.loadFor_some, Config.load_of_file hjson hparse hvalid]
    rfl
  obtain ⟨resolved, hresolve⟩ := Config.exists_resolve hvalid
  have hsettings := Config.settingsFor_eq_ok_iff.2 ⟨c, _, resolved, hload, hresolve, rfl, rfl⟩
  obtain ⟨s, hover⟩ : ∃ s, flags.override { resolved with source := some (bytes "c.json") } = .ok s := by
    rw [ScanFlags.override, hmax]
    exact ⟨_, rfl⟩
  have hexists : (gate config).exists? (bytes "a.c") = true := by
    rw [Disk.exists?, hfile]
    rfl
  have hrun := ScanRun.ofSettings_of_file [] (by decide +kernel) hfile s (flags.selection s)
  refine ⟨hload, _, _, ScanRun.ofPath_eq_ok_iff.2 ⟨.inr hexists, _, _, s, _, hsettings, hover, hrun, rfl⟩, ?_⟩
  obtain ⟨-, includes, excludes, rfl⟩ := Config.of_resolve hresolve
  rw [ScanFlags.selection, (ScanFlags.of_override hover).2.2]
  rfl

/-- A configuration with a threshold, and one that filters as well. -/
def plainText : String := "\x7b\"max_lines\": 1\x7d"

def filteredText : String := "\x7b\"max_lines\": 1, \"warnings_only\": true, \"min_lines\": 9, \"top\": 1\x7d"

/-- A scan fails on its one warning, be it that a configuration or the command line keeps it from being shown. -/
theorem exit_by_hidden_warning :
    let flags : ScanFlags := { config := some (bytes "c.json"), failOnWarning := true }
    let flags' : ScanFlags := { flags with format := .json, order := .lines, top := some 0 }
    let c : Config := { maxLines := some 1 }
    let c' : Config := { c with top := some 1, minLines := some 9, warningsOnly := some true }
    ∃ notes run notes' run',
      ScanRun.ofPath (gate plainText) [] (bytes "a.c") flags = (notes, .ok run) ∧
      ScanRun.ofPath (gate filteredText) [] (bytes "a.c") flags' = (notes', .ok run') ∧
      Config.loadFor (gate filteredText) (ScanRun.configRoot (gate filteredText) (bytes "a.c")) flags'.config =
        .ok (c', some (bytes "c.json")) ∧
      (∀ text, ScanRun.Scans (gate filteredText) [] (bytes "a.c") run.settings text ↔
        ScanRun.Scans (gate plainText) [] (bytes "a.c") run.settings text) ∧
      run'.shown = [] ∧
      (Command.run (gate plainText) [] (.scan (bytes "a.c") flags)).exit = 1 ∧
      (Command.run (gate plainText) [] (.scan (bytes "a.c") flags')).exit = 1 ∧
      (Command.run (gate filteredText) [] (.scan (bytes "a.c") flags')).exit = 1 := by
  intro flags flags' c c'
  have hplain : Config.parse plainText = .ok c := eq_ok_of_toOption (by decide +kernel)
  have hfiltered : Config.parse filteredText = .ok c' := eq_ok_of_toOption (by decide +kernel)
  have hconfig : flags.config = some (bytes "c.json") := rfl
  have hmax : flags.maxLines = none := rfl
  have hconfig' : flags'.config = some (bytes "c.json") := rfl
  have hmax' : flags'.maxLines = none := rfl
  obtain ⟨hload, notes, run, hrun, -⟩ := exists_ofPath_gate hplain rfl hconfig hmax
  obtain ⟨hload', notes', run', hrun', htop⟩ := exists_ofPath_gate hfiltered rfl hconfig' hmax'
  have hscans {config text : String} : ScanRun.Scans (gate config) [] (bytes "a.c") run.settings text ↔ text = twoLines :=
    ScanRun.scans_iff_of_file (by decide +kernel) (find_gate config).1
  have hsame (text : String) : ScanRun.Scans (gate filteredText) [] (bytes "a.c") run.settings text ↔
      ScanRun.Scans (gate plainText) [] (bytes "a.c") run.settings text := by rw [hscans, hscans]
  obtain ⟨_, _, hload'', hone, -, hflags, hconfigs⟩ := exit_by_what_is_found hrun
  obtain ⟨rfl, rfl⟩ := Prod.mk.inj (Except.ok.inj (hload.symm.trans hload''))
  have hexit := hone.2 ⟨rfl, twoLines, hscans.2 rfl, by decide +kernel⟩
  have hshown : run'.shown = [] := by
    rw [ScanRun.shown, Selection.apply, Selection.cut, htop]
    exact List.take_zero
  exact ⟨notes, run, notes', run', hrun, hrun', hload', hsame, hshown, hexit, (hflags flags' rfl).2.trans hexit,
    (hconfigs _ flags' c' _ _ _ hrun' hload' rfl rfl hsame).trans hexit⟩

end BodyLength
