import BodyLength.CommandLine.Run
import BodyLength.Proofs.Config.Discovery
import BodyLength.Proofs.Files.Isolation
import BodyLength.Proofs.Report.FileOrder
import BodyLength.Proofs.Text.Utf8
/-!
# Three ways to the same entries

The command line reads the files of a path by itself, to show how far it has come, and takes a
text from the standard input without any file. Both come to what `analyze` gives: the same
entries with the same warnings, or the same failure (`ScanRun.ofSettings_of_ne`), and for a text
that stands in a file the entries of that file under another name (`ScanRun.ofSettings_stdin`,
`Selection.apply_inFile`).
-/

namespace BodyLength

/-- The entry under another file name. -/
def Entry.inFile (file : String) (e : Entry) : Entry := { e with file }

theorem analyzeText_inFile (file file' text : String) (options : ScanOptions) :
    (analyzeText file text options).map (.inFile file') = analyzeText file' text options := by
  rw [analyzeText, List.map_map]
  rfl

namespace SortOrder

/-- Within a file its name does not decide. -/
theorem le_inFile (order : SortOrder) {a b : Entry} (h : a.file = b.file) (file : String) :
    order.le (a.inFile file) (b.inFile file) = order.le a b := by
  cases order <;> simp [le, compare, Entry.comparePosition, Entry.inFile, h]

end SortOrder

namespace Selection

/-- Another name for the file of all entries only shows in the entries selected. -/
theorem apply_inFile (s : Selection) (file : String) {es : List Entry}
    (h : ∀ a ∈ es, ∀ b ∈ es, a.file = b.file) :
    s.apply (es.map (.inFile file)) = (s.apply es).map (.inFile file) := by
  have hfilter : (es.map (.inFile file)).filter s.admits = (es.filter s.admits).map (.inFile file) :=
    List.filter_map
  have hsort : s.order.sort ((es.filter s.admits).map (.inFile file)) =
      (s.order.sort (es.filter s.admits)).map (.inFile file) := by
    refine (List.map_mergeSort fun a ha b hb => ?_).symm
    exact (s.order.le_inFile (h a (List.mem_of_mem_filter ha) b (List.mem_of_mem_filter hb)) file).symm
  rw [apply, apply, hfilter, hsort, cut, cut]
  cases s.top with
  | none => rfl
  | some n => exact List.map_take.symm

end Selection

/-! ## Files -/

namespace ScanRun

theorem readFiles_eq (d : Disk) (path : FilePath) (s : Settings) :
    readFiles d path s = (analyzePath d s path).map fun a => (a.entries, a.allWarnings) := by
  have hsummary (a : Analysis) : (if 0 < a.skipped then [LogEvent.skippedFiles a.skipped] else []) =
      if a.skipped = 0 then [] else [.skippedFiles a.skipped] := by
    cases a.skipped <;> rfl
  simp only [readFiles, analyzePath, hsummary]
  cases d.collect s.filter path <;> rfl

variable {d : Disk} {path : FilePath} {text : String}

theorem collect_of_file {content : List UInt8} (h : d.find path = .ok (.file content)) (f : FileFilter) :
    d.collect f path = .ok [path] := by
  rw [Disk.collect, h]

theorem readFiles_of_file (h : d.find path = .ok (.file (bytes text))) (s : Settings) :
    readFiles d path s = .ok (analyzeText (Path.display path) text s.scan, []) := by
  have hanalysis : analyzePath d s path = .ok (.ofFiles d [path] s.scan) := by
    rw [analyzePath, collect_of_file h]
    rfl
  have hfile : Analysis.ofFiles d [path] s.scan = { entries := analyzeText (Path.display path) text s.scan } := by
    rw [Analysis.ofFiles_eq, Disk.readable_cons_of_ok (Disk.readText_eq_ok_iff.2 h),
      Disk.unreadable_cons_of_ok (Disk.readText_eq_ok_iff.2 h)]
    simp [Disk.readable, Disk.unreadable]
  rw [readFiles_eq, hanalysis, hfile]
  rfl

theorem readInput_bytes (text : String) (s : Settings) :
    readInput (bytes text) s = .ok (analyzeText stdinName text s.scan) := by
  rw [readInput, text?_bytes]

/-- The command line and `analyze` come to the same result or to the same failure. -/
theorem ofSettings_of_ne (d : Disk) (stdin : List UInt8) (h : path ≠ stdinPath) (s : Settings)
    (selection : Selection) :
    (ofSettings d stdin path s selection).map (fun r => (r.1.shown, r.2)) = analyze d s selection path := by
  rw [ofSettings, if_neg h, readFiles_eq, analyze]
  cases analyzePath d s path <;> rfl

theorem of_ofSettings {stdin : List UInt8} {s : Settings} {selection : Selection} {run : ScanRun}
    {warnings : List LogEvent} (h : ofSettings d stdin path s selection = .ok (run, warnings)) :
    run.settings = s ∧ run.selection = selection := by
  rw [ofSettings] at h
  split at h
  · cases hinput : readInput stdin s with
    | error e =>
      rw [hinput] at h
      cases h
    | ok entries =>
      rw [hinput] at h
      cases h
      exact ⟨rfl, rfl⟩
  · obtain ⟨r, -, hrun⟩ := bind_eq_ok h
    cases hrun
    exact ⟨rfl, rfl⟩

theorem ofSettings_stdin (d : Disk) (text : String) (s : Settings) (selection : Selection) :
    ofSettings d (bytes text) stdinPath s selection =
      .ok ({ settings := s, selection, entries := analyzeText stdinName text s.scan }, []) := by
  rw [ofSettings, if_pos rfl, readInput_bytes]
  rfl

theorem ofSettings_of_file (stdin : List UInt8) (h : path ≠ stdinPath)
    (hfile : d.find path = .ok (.file (bytes text))) (s : Settings) (selection : Selection) :
    ofSettings d stdin path s selection =
      .ok ({ settings := s, selection, entries := analyzeText (Path.display path) text s.scan }, []) := by
  rw [ofSettings, if_neg h, readFiles_of_file hfile]
  rfl

end ScanRun

/-! ## Agreement -/

/-- A scan of a path shows what `analyze` gives, under any settings and for any selection, with the
same warnings, and prints it. Where `analyze` fails, the scan fails in the same way. A scan of the
standard input shows what a scan of a file with the same text does, but for the name of the file. -/
theorem front_ends_agree (d : Disk) (stdin : List UInt8) (s : Settings) (selection : Selection)
    {path : FilePath} (hpath : path ≠ ScanRun.stdinPath) :
    (ScanRun.ofSettings d stdin path s selection).map (fun r => (r.1.shown, r.2)) = analyze d s selection path ∧
    (∀ flags configured notes, d.exists? path = true →
      Config.settingsFor d (ScanRun.configRoot d path) flags.config = .ok (configured, notes) →
      flags.override configured = .ok s →
      let result := Command.run d stdin (.scan path flags)
      (∀ found, analyze d s (flags.selection s) path = .ok found →
        result.stdout = flags.format.render s.palette found.1 ∧
          result.stderr = String.join ((notes ++ found.2).map LogEvent.line)) ∧
      ∀ failure, analyze d s (flags.selection s) path = .error failure → result = .failed notes failure) ∧
    ∀ text, d.find path = .ok (.file (bytes text)) →
      ∃ input file, ScanRun.ofSettings d (bytes text) ScanRun.stdinPath s selection = .ok (input, []) ∧
        ScanRun.ofSettings d stdin path s selection = .ok (file, []) ∧
        input.shown = file.shown.map (.inFile ScanRun.stdinName) := by
  refine ⟨ScanRun.ofSettings_of_ne d stdin hpath s selection, ?_, ?_⟩
  · intro flags configured notes hex hload hover result
    have hshown := ScanRun.ofSettings_of_ne d stdin hpath s (flags.selection s)
    rw [← hshown]
    cases hrun : ScanRun.ofSettings d stdin path s (flags.selection s) with
    | error failure =>
      have hresult : ScanRun.ofPath d stdin path flags = (notes, .error failure) := by
        simp [ScanRun.ofPath, hex, hload, hover, hrun]
      refine ⟨nofun, fun failure' hfailure => ?_⟩
      obtain rfl := Except.error.inj hfailure
      simp only [result, Command.run, Command.runScan, hresult]
    | ok r =>
      obtain ⟨run, warnings⟩ := r
      have hresult : ScanRun.ofPath d stdin path flags = (notes ++ warnings, .ok run) := by
        simp [ScanRun.ofPath, hex, hload, hover, hrun]
      refine ⟨fun found hfound => ?_, nofun⟩
      obtain rfl := Except.ok.inj hfound
      simp only [result, Command.run, Command.runScan, hresult, (ScanRun.of_ofSettings hrun).1]
      exact ⟨rfl, rfl⟩
  · intro text hfile
    refine ⟨_, _, ScanRun.ofSettings_stdin d text s selection,
      ScanRun.ofSettings_of_file stdin hpath hfile s selection, ?_⟩
    have hsame : ∀ a ∈ analyzeText (Path.display path) text s.scan,
        ∀ b ∈ analyzeText (Path.display path) text s.scan, a.file = b.file := fun a ha b hb =>
      (file_of_mem_analyzeText ha).trans (file_of_mem_analyzeText hb).symm
    rw [ScanRun.shown, ScanRun.shown, ← selection.apply_inFile _ hsame, analyzeText_inFile]

/-- A directory with one file, and nothing that configures a scan of it. -/
def loneFile : Disk := { root := .dir [(bytes "a.c", .file (bytes "f()\x7b\x7d"))] }

theorem configRoot_loneFile : ScanRun.configRoot loneFile (bytes "a.c") = bytes "/" := by
  have hpath : Path.join loneFile.workingPath (bytes "a.c") = bytes "/a.c" := by decide +kernel
  have hparents : Path.parents (bytes "/a.c") = [bytes "/"] := by decide +kernel
  have hgit : Path.join (bytes "/") Disk.projectEntry = bytes "/.git" := by decide +kernel
  have hfile : loneFile.isFile (bytes "/a.c") = true := by
    rw [Disk.isFile, Disk.find_from_root rfl rfl (by decide +kernel)]
    rfl
  have hproject : loneFile.projectRoot? (bytes "/a.c") = none := by
    rw [Disk.projectRoot?, Disk.rootCandidates, if_pos hfile, hparents, List.find?_singleton, hgit,
      Disk.exists?, Disk.find_from_root rfl rfl (by decide +kernel)]
    rfl
  rw [ScanRun.configRoot, if_neg (by decide +kernel), hpath, Disk.configRoot, hproject]
  simp only [hfile, if_true, Path.parent?, hparents]
  rfl

theorem settingsFor_loneFile : ∃ s, Config.settingsFor loneFile (bytes "/") none = .ok (s, []) := by
  have hnames : Config.fileNames.map (Path.join (bytes "/")) =
      [bytes "/.funclinesrc.json", bytes "/funclines.config.json"] := by decide +kernel
  have hmissing : ∀ path ∈ Config.fileNames.map (Path.join (bytes "/")), ¬ loneFile.exists? path := by
    rw [hnames, List.forall_mem_cons, List.forall_mem_singleton]
    constructor
    · rw [Disk.exists?, Disk.find_from_root rfl rfl (by decide +kernel)]
      decide +kernel
    · rw [Disk.exists?, Disk.find_from_root rfl rfl (by decide +kernel)]
      decide +kernel
  obtain ⟨s, hs⟩ : ∃ s, Config.resolve {} = .ok s := Config.exists_resolve rfl
  exact ⟨_, Config.settingsFor_eq_ok_iff.2 ⟨{}, none, s, Config.loadFor_of_missing hmissing, hs, rfl, rfl⟩⟩

/-- The one file, scanned by its name and on the standard input, under the default settings. -/
theorem front_ends_agree_on_file :
    let text := "f()\x7b\x7d"
    let path := bytes "a.c"
    let flags : ScanFlags := { lenientBraces := true }
    ∃ configured s found, path ≠ ScanRun.stdinPath ∧ loneFile.exists? path = true ∧
      Config.settingsFor loneFile (ScanRun.configRoot loneFile path) flags.config =
        .ok (configured, []) ∧
      flags.override configured = .ok s ∧ loneFile.find path = .ok (.file (bytes text)) ∧
      analyze loneFile s (flags.selection s) path = .ok found ∧
      (Command.run loneFile [] (.scan path flags)).stdout = flags.format.render s.palette found.1 ∧
      ∃ input file, ScanRun.ofSettings loneFile (bytes text) ScanRun.stdinPath s {} =
          .ok (input, []) ∧
        ScanRun.ofSettings loneFile [] path s {} = .ok (file, []) ∧
        input.shown = file.shown.map (.inFile "<stdin>") := by
  intro text path flags
  have hpath : path ≠ ScanRun.stdinPath := by decide +kernel
  have hfile : loneFile.find path = .ok (.file (bytes text)) := by
    rw [Disk.find_from_root rfl rfl (by decide +kernel)]
    rfl
  have hex : loneFile.exists? path = true := by
    rw [Disk.exists?, hfile]
    rfl
  obtain ⟨configured, hload⟩ := settingsFor_loneFile
  rw [← configRoot_loneFile] at hload
  obtain ⟨s, hover⟩ : ∃ s, flags.override configured = .ok s := ⟨_, rfl⟩
  obtain ⟨found, hfound⟩ : ∃ found, analyze loneFile s (flags.selection s) path = .ok found := by
    rw [← ScanRun.ofSettings_of_ne loneFile [] hpath, ScanRun.ofSettings_of_file [] hpath hfile]
    exact ⟨_, rfl⟩
  have hrun := (front_ends_agree loneFile [] s {} hpath).2.1 flags configured [] hex hload hover
  have hinput := (front_ends_agree loneFile [] s {} hpath).2.2 text hfile
  exact ⟨configured, s, found, hpath, hex, hload, hover, hfile, hfound, (hrun.1 found hfound).1, hinput⟩

end BodyLength
