import BodyLength.Report.Selection
import Mathlib.Data.String.Basic
/-!
# Stable sorting

Both orders compare only a part of an entry, so different entries may be tied. Sorting keeps
the order of tied entries (`SortOrder.filter_tied_sort`), and this settles the sorted list:
two lists in which the ties come in the same order are sorted into the same list
(`SortOrder.sort_congr`).
-/

namespace BodyLength

namespace Entry

theorem comparePosition_eq : comparePosition = compareLex (compareOn Entry.file)
    (compareLex (compareOn (·.report.signatureLine)) (compareOn (·.report.closeLine))) := rfl

instance : Std.TransCmp comparePosition := comparePosition_eq ▸ inferInstance

end Entry

namespace SortOrder

theorem compare_lines : lines.compare =
    compareLex (fun a b => compareOn (·.report.lineCount) b a) Entry.comparePosition := rfl

instance (order : SortOrder) : Std.TransCmp order.compare :=
  match order with
  | source => inferInstanceAs (Std.TransCmp Entry.comparePosition)
  | lines => compare_lines ▸ inferInstance

variable (order : SortOrder)

theorem le_trans (a b c : Entry) (hab : order.le a b) (hbc : order.le b c) : order.le a c :=
  Std.TransCmp.isLE_trans hab hbc

theorem le_total (a b : Entry) : (order.le a b || order.le b a) = true := by
  have hswap : order.compare b a = (order.compare a b).swap := Std.OrientedCmp.eq_swap
  rw [le, le, hswap]
  cases order.compare a b <;> rfl

theorem pairwise_sort (l : List Entry) : (order.sort l).Pairwise (order.le · ·) :=
  List.pairwise_mergeSort order.le_trans order.le_total l

/-! ## Ties -/

/-- Whether neither of two entries must stand before the other. -/
def tied (a b : Entry) : Bool := (order.compare a b).isEq

variable {order} {a b c : Entry}

theorem tied_iff : order.tied a b ↔ order.compare a b = .eq := Ordering.isEq_iff_eq_eq

theorem tied_self (a : Entry) : order.tied a a := tied_iff.2 Std.ReflCmp.compare_self

theorem tied_of_le (hab : order.le a b) (hba : order.le b a) : order.tied a b :=
  tied_iff.2 (Std.OrientedCmp.isLE_antisymm hab hba)

/-- Entries that are tied with the same one may stand in either order. -/
theorem le_of_tied (hb : order.tied a b) (hc : order.tied a c) : order.le b c := by
  rw [tied_iff] at hb hc
  rw [le, ← Std.TransCmp.congr_left hb, hc]
  rfl

/-- Tied entries are of the same file. -/
theorem file_eq_of_tied (h : order.tied a b) : a.file = b.file := by
  have hposition : a.comparePosition b = .eq := by
    cases order with
    | source => exact tied_iff.1 h
    | lines => exact (Ordering.then_eq_eq.1 (tied_iff.1 h)).2
  exact Std.LawfulEqCmp.eq_of_compare (Ordering.then_eq_eq.1 hposition).1

/-! ## What sorting leaves as it is -/

theorem filter_tied_sort (a : Entry) (l : List Entry) :
    (order.sort l).filter (order.tied a) = l.filter (order.tied a) := by
  have hordered : (l.filter (order.tied a)).Pairwise (order.le · ·) :=
    List.pairwise_of_forall_mem_list fun b hb c hc =>
      le_of_tied (List.mem_filter.1 hb).2 (List.mem_filter.1 hc).2
  have hsub : (l.filter (order.tied a)).Sublist (order.sort l) :=
    List.sublist_mergeSort order.le_trans order.le_total hordered List.filter_sublist
  have hfilter := hsub.filter (order.tied a)
  simp only [List.filter_filter, Bool.and_self] at hfilter
  exact (hfilter.eq_of_length ((List.mergeSort_perm l order.le).filter _).length_eq.symm).symm

theorem mem_iff_of_filter_tied {l l' : List Entry}
    (h : ∀ a, l.filter (order.tied a) = l'.filter (order.tied a)) (x : Entry) : x ∈ l ↔ x ∈ l' := by
  have hx := congrArg (x ∈ ·) (h x)
  simpa [tied_self] using hx

/-- The head of a sorted list may stand before all that is in it. -/
theorem le_of_mem_sorted {x y : Entry} {l : List Entry} (hl : (x :: l).Pairwise (order.le · ·))
    (hy : y ∈ x :: l) : order.le x y := by
  rcases List.mem_cons.1 hy with rfl | hy
  · exact le_of_tied (tied_self y) (tied_self y)
  · exact List.rel_of_pairwise_cons hl hy

/-- A sorted list is settled by the order of its ties. -/
theorem eq_of_filter_tied {l l' : List Entry} (hl : l.Pairwise (order.le · ·))
    (hl' : l'.Pairwise (order.le · ·))
    (h : ∀ a, l.filter (order.tied a) = l'.filter (order.tied a)) : l = l' := by
  have hmem := mem_iff_of_filter_tied h
  induction l generalizing l' with
  | nil => exact (List.eq_nil_iff_forall_not_mem.2 fun x hx => by simpa using (hmem x).2 hx).symm
  | cons x xs ih =>
    cases l' with
    | nil => simpa using hmem x
    | cons y ys =>
      -- Each head is in the other list too, so neither must stand before the other.
      have hxy : order.tied x y := by
        apply tied_of_le
        · exact le_of_mem_sorted hl ((hmem y).2 List.mem_cons_self)
        · exact le_of_mem_sorted hl' ((hmem x).1 List.mem_cons_self)
      obtain rfl : x = y := by
        have hx := h x
        rw [List.filter_cons_of_pos (tied_self x), List.filter_cons_of_pos hxy] at hx
        exact List.head_eq_of_cons_eq hx
      have htail (a : Entry) : xs.filter (order.tied a) = ys.filter (order.tied a) := by
        have ha := h a
        rw [List.filter_cons, List.filter_cons] at ha
        split at ha
        · exact List.tail_eq_of_cons_eq ha
        · exact ha
      exact congrArg (x :: ·) (ih hl.tail hl'.tail htail (mem_iff_of_filter_tied htail))

/-- Lists with the same ties in the same order are sorted into the same list. -/
theorem sort_congr {l l' : List Entry}
    (h : ∀ a, l.filter (order.tied a) = l'.filter (order.tied a)) : order.sort l = order.sort l' :=
  eq_of_filter_tied (order.pairwise_sort l) (order.pairwise_sort l') fun a => by
    rw [filter_tied_sort, filter_tied_sort, h a]

end SortOrder

end BodyLength
