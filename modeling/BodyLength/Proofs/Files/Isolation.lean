import BodyLength.Analysis
import BodyLength.Proofs.Files.Walk
import BodyLength.Proofs.Json.Decode
import BodyLength.Proofs.Text.Utf8
/-!
# Files that cannot be read

A path is read if it leads to a file whose bytes are those of a text (`Disk.readText_eq_ok_iff`). Every other
path is left out with a warning and costs the others nothing: entries, number and warnings of an analysis are
read off the paths one by one (`Analysis.ofFiles_eq`), and off the pairs of a path and a result if the results
are at hand (`Analysis.merge_eq`).
-/

namespace BodyLength

namespace Disk

variable {d : Disk} {path : FilePath} {text : String}

theorem readText_eq_ok_iff : d.readText path = .ok text ↔ d.find path = .ok (.file (bytes text)) := by
  rw [readText, readBytes]
  cases d.find path with
  | error e => simp
  | ok t =>
    cases t with
    | file content =>
      simp only [Except.ok.injEq, FileTree.file.injEq, ← text?_eq_some_iff]
      cases text? content <;> simp
    | link target => simp
    | dir es => simp

/-- The paths that can be read, each with its text. -/
def readable (d : Disk) (paths : List FilePath) : List (FilePath × String) :=
  paths.filterMap fun path => (d.readText path).toOption.map (path, ·)

/-- The paths that cannot be read, each with the reason. -/
def unreadable (d : Disk) (paths : List FilePath) : List (FilePath × FileFault) :=
  paths.filterMap fun path =>
    match d.readText path with
    | .ok _ => none
    | .error e => some (path, e)

section
variable {paths : List FilePath} {e : FileFault}

theorem mem_readable_iff : (path, text) ∈ d.readable paths ↔ path ∈ paths ∧ d.readText path = .ok text := by
  have htext (path' : FilePath) : (d.readText path').toOption.map (path', ·) = some (path, text) ↔
      d.readText path = .ok text ∧ path' = path := by
    constructor
    · intro h
      obtain ⟨text', htext', heq⟩ := Option.map_eq_some_iff.1 h
      obtain ⟨rfl, rfl⟩ := Prod.mk.inj heq
      exact ⟨eq_ok_of_toOption htext', rfl⟩
    · rintro ⟨h, rfl⟩
      rw [h]
      rfl
  simp only [readable, List.mem_filterMap, htext, exists_eq_right_right]

theorem readable_cons_of_ok (h : d.readText path = .ok text) :
    d.readable (path :: paths) = (path, text) :: d.readable paths := by
  simp [readable, h, Except.toOption]

theorem readable_cons_of_error (h : d.readText path = .error e) :
    d.readable (path :: paths) = d.readable paths := by
  simp [readable, h, Except.toOption]

theorem unreadable_cons_of_ok (h : d.readText path = .ok text) :
    d.unreadable (path :: paths) = d.unreadable paths := by
  simp [unreadable, h]

theorem unreadable_cons_of_error (h : d.readText path = .error e) :
    d.unreadable (path :: paths) = (path, e) :: d.unreadable paths := by
  simp [unreadable, h]

end

theorem readable_append (d : Disk) (front back : List FilePath) :
    d.readable (front ++ back) = d.readable front ++ d.readable back :=
  List.filterMap_append

theorem unreadable_append (d : Disk) (front back : List FilePath) :
    d.unreadable (front ++ back) = d.unreadable front ++ d.unreadable back :=
  List.filterMap_append

/-- Each path can be read or not. -/
theorem length_unreadable_add (d : Disk) (paths : List FilePath) :
    (d.unreadable paths).length + (d.readable paths).length = paths.length := by
  induction paths with
  | nil => rfl
  | cons path paths ih =>
    rw [List.length_cons, ← ih]
    cases h : d.readText path with
    | ok text =>
      rw [readable_cons_of_ok h, unreadable_cons_of_ok h, List.length_cons]
      omega
    | error e =>
      rw [readable_cons_of_error h, unreadable_cons_of_error h, List.length_cons]
      omega

end Disk

namespace Analysis

/-! ## Paths -/

theorem ofFiles_cons (d : Disk) (path : FilePath) (paths : List FilePath) (options : ScanOptions) :
    ofFiles d (path :: paths) options =
      (ofFiles d paths options).add path ((analyzeFile d path options).mapError Failure.messages) :=
  rfl

theorem ofFiles_eq (d : Disk) (paths : List FilePath) (options : ScanOptions) :
    ofFiles d paths options =
      { entries := (d.readable paths).flatMap fun f => analyzeText (Path.display f.1) f.2 options
        skipped := (d.unreadable paths).length
        warnings := (d.unreadable paths).map fun f =>
          .skippedFile f.1 ["Failed to read file: " ++ shownText f.1, f.2.message] } := by
  induction paths with
  | nil => rfl
  | cons path paths ih =>
    rw [ofFiles_cons, ih, analyzeFile]
    cases h : d.readText path with
    | ok text =>
      rw [Disk.readable_cons_of_ok h, Disk.unreadable_cons_of_ok h]
      rfl
    | error e =>
      rw [Disk.readable_cons_of_error h, Disk.unreadable_cons_of_error h]
      rfl

/-- One more path that cannot be read shows in the warnings alone. -/
theorem ofFiles_insert {d : Disk} {path : FilePath} {e : FileFault} (h : d.readText path = .error e)
    (front back : List FilePath) (options : ScanOptions) :
    let a := ofFiles d (front ++ back) options
    let a' := ofFiles d (front ++ path :: back) options
    a'.entries = a.entries ∧ a'.skipped = a.skipped + 1 := by
  simp only [ofFiles_eq, Disk.readable_append, Disk.unreadable_append, Disk.readable_cons_of_error h,
    Disk.unreadable_cons_of_error h, List.length_append, List.length_cons]
  exact ⟨trivial, by omega⟩

/-! ## Results -/

/-- Why there is no result. -/
def causes? : Except (List String) (List Entry) → Option (List String)
  | .ok _ => none
  | .error causes => some causes

/-- The results that there are. -/
def found (results : List (FilePath × Except (List String) (List Entry))) : List (List Entry) :=
  results.filterMap (·.2.toOption)

/-- The warnings for the others. -/
def complaints (results : List (FilePath × Except (List String) (List Entry))) : List LogEvent :=
  results.filterMap fun x => (causes? x.2).map (.skippedFile x.1)

variable {path : FilePath} {paths front back : List FilePath} {causes : List String}
  {results rs rs' : List (Except (List String) (List Entry))}

theorem merge_eq (paths : List FilePath) (results : List (Except (List String) (List Entry))) :
    let pairs := paths.zip results
    merge paths results =
      { entries := (found pairs).flatten
        skipped := (complaints pairs).length
        warnings := complaints pairs } := by
  fun_induction merge paths results with
  | case1 path paths r rs ih =>
    rw [ih]
    cases r <;> rfl
  | case2 paths results h =>
    have hzip : paths.zip results = [] := by
      cases paths with
      | nil => rfl
      | cons path paths =>
        cases results with
        | nil => rfl
        | cons r rs => exact (h path paths r rs rfl rfl).elim
    rw [hzip]
    rfl

/-- Each pair has a result or a warning. -/
theorem length_complaints_add (pairs : List (FilePath × Except (List String) (List Entry))) :
    (complaints pairs).length + (found pairs).length = pairs.length := by
  induction pairs with
  | nil => rfl
  | cons x pairs ih =>
    obtain ⟨path, _ | _⟩ := x <;>
      simp only [complaints, found, causes?, Except.toOption, List.filterMap_cons, Option.map_some, Option.map_none,
        List.length_cons] at ih ⊢ <;>
      omega

/-- What has no partner is left out. -/
theorem merge_take (paths : List FilePath) (results : List (Except (List String) (List Entry))) :
    let n := min paths.length results.length
    merge paths results = merge (paths.take n) (results.take n) := by
  intro n
  rw [merge_eq, merge_eq, ← List.zip_eq_zip_take_min]

theorem merge_insert (h : front.length = rs.length) :
    let a := merge (front ++ back) (rs ++ rs')
    let a' := merge (front ++ path :: back) (rs ++ .error causes :: rs')
    a'.entries = a.entries ∧ a'.skipped = a.skipped + 1 := by
  simp only [merge_eq, List.zip_append h, List.zip_cons_cons, found, complaints, causes?, Except.toOption,
    List.filterMap_append, List.filterMap_cons, Option.map_some, List.length_append, List.length_cons]
  exact ⟨trivial, by omega⟩

/-! ## Main theorem -/

/-- An analysis of some paths has the entries of those that can be read, in their order, and a warning for each
of the others. A path more that cannot be read adds to the number of those, but neither adds an entry nor takes
one away, wherever it stands. The same holds of results that are at hand, as far as there are as many of them
as there are paths. -/
theorem unreadable_files_isolated (d : Disk) (options : ScanOptions) :
    (∀ path text, d.readText path = .ok text ↔ d.find path = .ok (.file (bytes text))) ∧
    (∀ paths, let a := ofFiles d paths options
      a.entries = (d.readable paths).flatMap (fun f => analyzeText (Path.display f.1) f.2 options) ∧
        a.skipped + (d.readable paths).length = paths.length ∧
        a.warnings = (d.unreadable paths).map fun f =>
          .skippedFile f.1 ["Failed to read file: " ++ shownText f.1, f.2.message]) ∧
    (∀ front back path e, d.readText path = .error e →
      let a := ofFiles d (front ++ back) options
      let a' := ofFiles d (front ++ path :: back) options
      a'.entries = a.entries ∧ a'.skipped = a.skipped + 1) ∧
    (∀ paths results, let a := merge paths results
      let n := min paths.length results.length
      let pairs := paths.zip results
      a = merge (paths.take n) (results.take n) ∧ a.entries = (found pairs).flatten ∧
        a.skipped + (found pairs).length = n ∧ a.warnings = complaints pairs) ∧
    ∀ front back path rs rs' causes, front.length = rs.length →
      let a := merge (front ++ back) (rs ++ rs')
      let a' := merge (front ++ path :: back) (rs ++ .error causes :: rs')
      a'.entries = a.entries ∧ a'.skipped = a.skipped + 1 := by
  refine ⟨fun path text => Disk.readText_eq_ok_iff, fun paths => ?_, ?_, fun paths results => ?_, ?_⟩
  · simp only [ofFiles_eq, Disk.length_unreadable_add, true_and]
  · exact fun front back path e h => ofFiles_insert h front back options
  · refine ⟨merge_take paths results, ?_⟩
    simp only [merge_eq, length_complaints_add, List.length_zip, and_self]
  · exact fun front back path rs rs' causes h => merge_insert h

/-- A file with a text, a directory and a file without a text. -/
def mixedFiles : Disk where
  root := .dir [(bytes "a.c", .file (bytes "f()\n\x7b\n\x7d")), (bytes "b.c", .dir []), (bytes "c.c", .file [0xFF])]

theorem readText_mixedFiles : mixedFiles.readText (bytes "a.c") = .ok "f()\n\x7b\n\x7d" ∧
    mixedFiles.readText (bytes "b.c") = .error .isDirectory ∧ mixedFiles.readText (bytes "c.c") = .error .notUtf8 ∧
    mixedFiles.readText (bytes "d.c") = .error .notFound := by
  refine ⟨?_, ?_, ?_, ?_⟩
  · rw [Disk.readText_eq_ok_iff, Disk.find_from_root rfl rfl (by decide +kernel)]
    rfl
  · rw [Disk.readText, Disk.readBytes, Disk.find_from_root rfl rfl (by decide +kernel)]
    rfl
  · rw [Disk.readText, Disk.readBytes, Disk.find_from_root rfl rfl (by decide +kernel)]
    rfl
  · rw [Disk.readText, Disk.readBytes, Disk.find_from_root rfl rfl (by decide +kernel)]
    rfl

/-- A directory between three paths of which only the first can be read, and a failure between two results of
which the second has no path. -/
theorem directory_isolated :
    let file := bytes "a.c"
    let dir := bytes "b.c"
    let noText := bytes "c.c"
    let missing := bytes "d.c"
    let a := ofFiles mixedFiles [file, noText, missing] {}
    let a' := ofFiles mixedFiles [file, noText, dir, missing] {}
    mixedFiles.readText dir = .error .isDirectory ∧ a'.entries = a.entries ∧ a'.skipped = a.skipped + 1 ∧
      a'.skipped = 3 ∧
      [file].length = [(.ok [] : Except (List String) (List Entry))].length ∧
      (merge [file, dir] [.ok [], .error ["no"], .ok []]).skipped = (merge [file] [.ok [], .ok []]).skipped + 1 := by
  intro file dir noText missing a a'
  obtain ⟨hfile, hdir, hnoText, hmissing⟩ := readText_mixedFiles
  obtain ⟨-, hpaths, hinsert, -, hresults⟩ := unreadable_files_isolated mixedFiles {}
  obtain ⟨hentries, hskipped⟩ := hinsert [file, noText] [missing] dir .isDirectory hdir
  have hlen : [file].length = [(.ok [] : Except (List String) (List Entry))].length := rfl
  have hreadable : mixedFiles.readable [file, noText, dir, missing] = [(file, "f()\n\x7b\n\x7d")] := by
    rw [Disk.readable_cons_of_ok hfile, Disk.readable_cons_of_error hnoText, Disk.readable_cons_of_error hdir,
      Disk.readable_cons_of_error hmissing]
    rfl
  have hthree : a'.skipped = 3 := by
    have hcount := (hpaths [file, noText, dir, missing]).2.1
    rw [hreadable] at hcount
    exact Nat.add_right_cancel hcount
  exact ⟨hdir, hentries, hskipped, hthree, hlen, (hresults [file] [] dir _ [.ok []] ["no"] hlen).2⟩

end Analysis

end BodyLength
