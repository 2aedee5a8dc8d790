import BodyLength.Analysis
import BodyLength.Proofs.Report.Sorting
import BodyLength.Proofs.Scan.Places
/-!
# Sorting by position

Entries are sorted by the lines of their functions, while a scan gives them by the offsets of their
signatures. The two orders are the same as long as each line holds the signature of one function
only, as it does with opening braces on lines of their own (`signatureLine_lt`). A function that
begins and ends within the line that its enclosing function begins on is sorted before that one
(`sort_moves_nested`).
-/

namespace BodyLength

namespace Entry

/-- Within a file the line of the signature decides, then that of the closing brace. -/
theorem isLE_comparePosition (file : String) (r r' : FunctionReport) :
    (comparePosition ⟨file, r⟩ ⟨file, r'⟩).isLE ↔
      r.signatureLine < r'.signatureLine ∨ r.signatureLine = r'.signatureLine ∧ r.closeLine ≤ r'.closeLine := by
  have hfile : compare file file = .eq := Std.ReflCmp.compare_self
  rw [comparePosition, hfile, Ordering.eq_then, Ordering.isLE_then_iff_or, Std.compare_eq_lt,
    Std.LawfulEqCmp.compare_eq_iff_eq, Std.isLE_compare]

end Entry

namespace SortOrder

theorem le_source (a b : Entry) : source.le a b = (a.comparePosition b).isLE := rfl

/-- Sorting changes nothing if and only if the entries are in order already. -/
theorem sort_source_eq_self_iff (l : List Entry) : source.sort l = l ↔ l.Pairwise (source.le · ·) := by
  constructor
  · intro h
    rw [← h]
    exact source.pairwise_sort l
  · exact List.mergeSort_of_pairwise

end SortOrder

/-! ## The lines of signatures -/

variable {text : String} {options : ScanOptions} {x y : Body}

/-- A later signature is on the same line or on a later one. -/
theorem newlinesBefore_start_le (hx : x ∈ bodies text options) (h : x.signature.stop ≤ y.signature.start) :
    newlinesBefore (bytes text) x.signature.start ≤ newlinesBefore (bytes text) y.signature.start := by
  obtain ⟨-, o, ho⟩ := mem_bodies hx
  exact newlinesBefore_mono _ (Nat.le_trans (Nat.le_of_lt ho.start_lt_stop) h)

/-- It is on a later line if opening braces stand on lines of their own. -/
theorem newlinesBefore_start_lt (hx : x ∈ bodies text options) (hy : y ∈ bodies text options)
    (h : x.signature.stop ≤ y.signature.start) (hp : options.bracePlacement = .nextLine) :
    newlinesBefore (bytes text) x.signature.start < newlinesBefore (bytes text) y.signature.start := by
  obtain ⟨-, o, ho⟩ := mem_bodies hx
  obtain ⟨-, o', ho'⟩ := mem_bodies hy
  obtain ⟨z, -, hz⟩ := List.mem_filterMap.1 hx
  obtain ⟨rfl, hbrace, -⟩ := Body.of?_eq_some.1 hz
  rw [hp, ho.behind_eq] at hbrace
  have hnewline := (BracePlacement.locate?_nextLine hbrace).1
  have hne : x.signature.stop ≠ y.signature.start := by
    intro heq
    have hid := ho'.identifierAt_start
    rw [← heq, identifierAt_of_eq hnewline] at hid
    cases hid
  calc newlinesBefore (bytes text) x.signature.start
      ≤ newlinesBefore (bytes text) x.signature.stop := newlinesBefore_mono _ (Nat.le_of_lt ho.start_lt_stop)
    _ < newlinesBefore (bytes text) (x.signature.stop + 1) := by
      rw [newlinesBefore_succ hnewline]
      exact Nat.lt_succ_self _
    _ ≤ newlinesBefore (bytes text) y.signature.start := newlinesBefore_mono _ (by omega)

theorem bodies_pairwise_start_lt (text : String) (options : ScanOptions) :
    (bodies text options).Pairwise (·.signature.start < ·.signature.start) := by
  apply List.Pairwise.imp_of_mem _ (bodies_pairwise text options)
  intro x y hx _ hxy
  obtain ⟨-, o, ho⟩ := mem_bodies hx
  exact Nat.lt_of_lt_of_le ho.start_lt_stop hxy

/-! ## The entries of a text -/

theorem analyzeText_eq (file text : String) (options : ScanOptions) : analyzeText file text options =
    (bodies text options).map fun y => ⟨file, y.report (.ofBytes (bytes text)) options.maxLines⟩ := by
  rw [analyzeText, scan_eq, bodyReports, List.map_map]
  rfl

section
variable (h : (LineIndex.ofBytes (bytes text)).lineCount < 2 ^ 32)
include h

theorem signatureLine_le_iff (maxLines : UInt64) :
    (x.report (.ofBytes (bytes text)) maxLines).signatureLine ≤ (y.report (.ofBytes (bytes text)) maxLines).signatureLine ↔
      newlinesBefore (bytes text) x.signature.start ≤ newlinesBefore (bytes text) y.signature.start := by
  show (LineIndex.ofBytes (bytes text)).lineOf _ ≤ (LineIndex.ofBytes (bytes text)).lineOf _ ↔ _
  rw [UInt32.le_iff_toNat_le, LineIndex.toNat_lineOf h, LineIndex.toNat_lineOf h, Nat.add_le_add_iff_right]

theorem signatureLine_lt_iff (maxLines : UInt64) :
    (x.report (.ofBytes (bytes text)) maxLines).signatureLine < (y.report (.ofBytes (bytes text)) maxLines).signatureLine ↔
      newlinesBefore (bytes text) x.signature.start < newlinesBefore (bytes text) y.signature.start := by
  rw [← UInt32.not_le, signatureLine_le_iff h, Nat.not_le]

/-- Only the lines where functions of one line close can be out of order. -/
theorem sort_source_analyzeText_iff (file : String) :
    SortOrder.source.sort (analyzeText file text options) = analyzeText file text options ↔
      (analyzeText file text options).Pairwise fun a b =>
        a.report.signatureLine = b.report.signatureLine → a.report.closeLine ≤ b.report.closeLine := by
  rw [SortOrder.sort_source_eq_self_iff, analyzeText_eq, List.pairwise_map, List.pairwise_map]
  constructor
  · apply List.Pairwise.imp
    intro x y hle heq
    rw [SortOrder.le_source, Entry.isLE_comparePosition] at hle
    rcases hle with hlt | ⟨-, hle⟩
    · rw [heq] at hlt
      exact absurd hlt (UInt32.lt_irrefl _)
    · exact hle
  · intro hclose
    apply List.Pairwise.imp_of_mem _ (hclose.and (bodies_pairwise text options))
    rintro x y hx - ⟨hclose, hxy⟩
    rw [SortOrder.le_source, Entry.isLE_comparePosition]
    have hle := (signatureLine_le_iff h options.maxLines).2 (newlinesBefore_start_le hx hxy)
    rcases UInt32.lt_or_eq_of_le hle with hlt | heq
    · exact .inl hlt
    · exact .inr ⟨heq, hclose heq⟩

/-! ## Main theorem -/

/-- The entries of a text come in the order of their signatures. Sorting them by position keeps that
order if and only if no function closes on an earlier line than one that begins before it on the
same line, which cannot be if opening braces stand on lines of their own. -/
theorem sort_source_analyzeText (file : String) :
    (bodies text options).Pairwise (·.signature.start < ·.signature.start) ∧
    (analyzeText file text options =
      (bodies text options).map fun y => ⟨file, y.report (.ofBytes (bytes text)) options.maxLines⟩) ∧
    (SortOrder.source.sort (analyzeText file text options) = analyzeText file text options ↔
      (analyzeText file text options).Pairwise fun a b =>
        a.report.signatureLine = b.report.signatureLine → a.report.closeLine ≤ b.report.closeLine) ∧
    (options.bracePlacement = .nextLine →
      SortOrder.source.sort (analyzeText file text options) = analyzeText file text options) := by
  refine ⟨bodies_pairwise_start_lt text options, analyzeText_eq file text options,
    sort_source_analyzeText_iff h file, ?_⟩
  intro hp
  rw [sort_source_analyzeText_iff h, analyzeText_eq, List.pairwise_map]
  apply List.Pairwise.imp_of_mem _ (bodies_pairwise text options)
  intro x y hx hy hxy heq
  have hlt := (signatureLine_lt_iff h options.maxLines).2 (newlinesBefore_start_lt hx hy hxy hp)
  rw [heq] at hlt
  exact absurd hlt (UInt32.lt_irrefl _)

end

theorem sort_keeps_functions_in_a_row :
    (LineIndex.ofBytes (bytes "f()\x7b\x7dg()\x7b\n\x7d")).lineCount < 2 ^ 32 ∧
      SortOrder.source.sort (analyzeText "a" "f()\x7b\x7dg()\x7b\n\x7d" { bracePlacement := .lenient }) =
        analyzeText "a" "f()\x7b\x7dg()\x7b\n\x7d" { bracePlacement := .lenient } := by
  have h : (LineIndex.ofBytes (bytes "f()\x7b\x7dg()\x7b\n\x7d")).lineCount < 2 ^ 32 := by decide
  exact ⟨h, (sort_source_analyzeText h "a").2.2.1.2 (by decide +kernel)⟩

/-- A function inside another, on the line where that begins, is sorted before it. -/
theorem sort_moves_nested : ¬ ∀ (file text : String) (options : ScanOptions),
    SortOrder.source.sort (analyzeText file text options) = analyzeText file text options := by
  intro h
  have hlines : (LineIndex.ofBytes (bytes "f()\x7bg()\x7b\x7d\n\x7d")).lineCount < 2 ^ 32 := by decide
  have hsorted := h "a" "f()\x7bg()\x7b\x7d\n\x7d" { bracePlacement := .lenient }
  rw [sort_source_analyzeText_iff hlines] at hsorted
  revert hsorted
  decide +kernel

end BodyLength
