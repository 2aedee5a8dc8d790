import BodyLength.Analysis
import BodyLength.Proofs.Report.Sorting
/-!
# The order in which files come

Files may be analysed in any order. Entries are only tied with entries of their own file, and
those stay in the order in which the scan found them, so a selection does not depend on the
order of the files (`Selection.apply_files_perm`).
-/

namespace BodyLength

/-- Parts of which no two hold anything may be joined in any order. -/
theorem flatMap_eq_of_perm {α β : Type} {g : α → List β} {l l' : List α} (hp : l.Perm l')
    (h : l.Pairwise fun x y => g x = [] ∨ g y = []) : l.flatMap g = l'.flatMap g := by
  induction hp with
  | nil => rfl
  | cons x _ ih => rw [List.flatMap_cons, List.flatMap_cons, ih h.of_cons]
  | swap x y l =>
    have hxy := List.rel_of_pairwise_cons h List.mem_cons_self
    rcases hxy with hxy | hxy <;> simp [hxy]
  | trans hp _ ih ih' => exact (ih h).trans (ih' (hp.pairwise h Or.symm))

theorem file_of_mem_analyzeText {file text : String} {options : ScanOptions} {e : Entry}
    (h : e ∈ analyzeText file text options) : e.file = file := by
  obtain ⟨r, -, rfl⟩ := List.mem_map.1 h
  rfl

namespace Selection

/-- No entry of a file is tied with one of another file. -/
theorem filter_tied_analyzeText (s : Selection) {file : String} {a : Entry} (h : file ≠ a.file)
    (text : String) (options : ScanOptions) :
    ((analyzeText file text options).filter s.admits).filter (s.order.tied a) = [] := by
  simp only [List.filter_eq_nil_iff, List.mem_filter]
  rintro e ⟨he, -⟩ htied
  rw [SortOrder.file_eq_of_tied htied, file_of_mem_analyzeText he] at h
  exact h rfl

/-- What is selected from some files does not depend on the order in which they come. -/
theorem apply_files_perm {files files' : List (String × String)} (hp : files.Perm files')
    (hd : (files.map Prod.fst).Nodup) (options : ScanOptions) (s : Selection) :
    s.apply (files.flatMap fun f => analyzeText f.1 f.2 options) =
      s.apply (files'.flatMap fun f => analyzeText f.1 f.2 options) := by
  unfold apply
  congr 1
  apply SortOrder.sort_congr
  intro a
  simp only [List.filter_flatMap]
  apply flatMap_eq_of_perm hp
  refine (List.pairwise_map.1 hd).imp fun {f g} hne => ?_
  by_cases hf : f.1 = a.file
  · exact .inr (s.filter_tied_analyzeText (fun hg => hne (hf.trans hg.symm)) _ _)
  · exact .inl (s.filter_tied_analyzeText hf _ _)

/-- The functions of `b` share their lines, so only their order in the text tells them apart. -/
theorem apply_files_perm_tied :
    let f := ("a", "f()\x7b\x7d")
    let g := ("b", "g()\x7b\x7dh()\x7b\x7d")
    let options : ScanOptions := { bracePlacement := .lenient }
    [f, g].Perm [g, f] ∧ ([f, g].map Prod.fst).Nodup ∧
      Selection.apply { top := some 2, order := .lines }
          ([f, g].flatMap fun f => analyzeText f.1 f.2 options) =
        Selection.apply { top := some 2, order := .lines }
          ([g, f].flatMap fun f => analyzeText f.1 f.2 options) := by
  intro f g options
  have hp : [f, g].Perm [g, f] := .swap ..
  have hd : ([f, g].map Prod.fst).Nodup := by decide
  exact ⟨hp, hd, apply_files_perm hp hd options _⟩

end Selection

end BodyLength
