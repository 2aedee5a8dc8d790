import BodyLength.Proofs.Report.Sorting
import BodyLength.Proofs.Text.Utf8Order
/-!
# What a selection comes to

The order of entries is said here without comparing them step by step: `SortOrder.Before` is the strict order
and `SortOrder.key` what it depends on (`compare_eq_lt_iff`, `tied_iff_key`). A selection is the stably sorted
list of the entries that pass the filters, or a beginning of it. What it shows passes the filters and is in
order, so selecting from that once more changes nothing (`apply_apply`).
-/

namespace BodyLength

namespace Entry

/-- What tells where the function of an entry is. -/
def position (e : Entry) : List UInt8 × UInt32 × UInt32 :=
  (bytes e.file, e.report.signatureLine, e.report.closeLine)

/-- The function of `a` is in a file whose name has lesser bytes, or begins on an earlier line of the same
file, or begins on the same line and ends on an earlier one. -/
def Precedes (a b : Entry) : Prop :=
  bytes a.file < bytes b.file ∨ bytes a.file = bytes b.file ∧
    (a.report.signatureLine < b.report.signatureLine ∨ a.report.signatureLine = b.report.signatureLine ∧
      a.report.closeLine < b.report.closeLine)

variable {a b : Entry}

theorem compare_file_eq_lt_iff : compare a.file b.file = .lt ↔ bytes a.file < bytes b.file := by
  rw [bytes_lt_bytes]
  exact compareOfLessAndEq_eq_lt

theorem compare_file_eq_eq_iff : compare a.file b.file = .eq ↔ bytes a.file = bytes b.file := by
  rw [Std.LawfulEqCmp.compare_eq_iff_eq]
  exact ⟨congrArg bytes, bytes_injective⟩

theorem comparePosition_eq_lt_iff : a.comparePosition b = .lt ↔ a.Precedes b := by
  rw [comparePosition, Ordering.then_eq_lt, Ordering.then_eq_lt, compare_file_eq_lt_iff, compare_file_eq_eq_iff,
    Std.compare_eq_lt, Std.compare_eq_lt, Std.LawfulEqCmp.compare_eq_iff_eq]
  rfl

theorem comparePosition_eq_eq_iff : a.comparePosition b = .eq ↔ a.position = b.position := by
  rw [comparePosition, Ordering.then_eq_eq, Ordering.then_eq_eq, compare_file_eq_eq_iff,
    Std.LawfulEqCmp.compare_eq_iff_eq, Std.LawfulEqCmp.compare_eq_iff_eq, position, position, Prod.mk.injEq,
    Prod.mk.injEq]

end Entry

namespace SortOrder

/-- Whether `a` has to stand before `b`. -/
def Before : SortOrder → Entry → Entry → Prop
  | source, a, b => a.Precedes b
  | lines, a, b => b.report.lineCount < a.report.lineCount ∨
      a.report.lineCount = b.report.lineCount ∧ a.Precedes b

/-- What entries are ordered by. -/
def key : SortOrder → Entry → Option UInt64 × List UInt8 × UInt32 × UInt32
  | source, e => (none, e.position)
  | lines, e => (some e.report.lineCount, e.position)

variable {order : SortOrder} {a b : Entry}

theorem compare_eq_lt_iff : order.compare a b = .lt ↔ order.Before a b := by
  cases order with
  | source => exact Entry.comparePosition_eq_lt_iff
  | lines =>
    rw [compare, Ordering.then_eq_lt, Std.compare_eq_lt, Std.LawfulEqCmp.compare_eq_iff_eq,
      Entry.comparePosition_eq_lt_iff, eq_comm]
    rfl

theorem tied_iff_key : order.tied a b ↔ order.key a = order.key b := by
  rw [tied_iff]
  cases order with
  | source =>
    rw [compare, Entry.comparePosition_eq_eq_iff]
    exact ⟨congrArg (Prod.mk none), congrArg Prod.snd⟩
  | lines =>
    rw [compare, Ordering.then_eq_eq, Std.LawfulEqCmp.compare_eq_iff_eq, Entry.comparePosition_eq_eq_iff]
    constructor
    · rintro ⟨hcount, hposition⟩
      exact Prod.ext (congrArg some hcount.symm) hposition
    · intro h
      exact ⟨(Option.some.inj (congrArg Prod.fst h)).symm, congrArg Prod.snd h⟩

/-- Entries with one key come in the order they had. -/
theorem filter_key_sort (k : Option UInt64 × List UInt8 × UInt32 × UInt32) (l : List Entry) :
    (order.sort l).filter (order.key · = k) = l.filter (order.key · = k) := by
  by_cases hk : ∃ a, order.key a = k
  · obtain ⟨a, rfl⟩ := hk
    have htied : (fun e => decide (order.key e = order.key a)) = order.tied a := by
      funext e
      rw [Bool.eq_iff_iff, decide_eq_true_iff, tied_iff_key, eq_comm]
    rw [htied, filter_tied_sort]
  · have hnone (e : Entry) : ¬ decide (order.key e = k) := fun he => hk ⟨e, of_decide_eq_true he⟩
    rw [List.filter_eq_nil_iff.2 fun e _ => hnone e, List.filter_eq_nil_iff.2 fun e _ => hnone e]

theorem le_iff_not_before : order.le a b ↔ ¬ order.Before b a := by
  have hswap : order.compare b a = (order.compare a b).swap := Std.OrientedCmp.eq_swap
  rw [← compare_eq_lt_iff, hswap, le]
  cases order.compare a b <;> decide

/-- Nothing behind a beginning of a sorted list has to stand before what is in it. -/
theorem not_before_of_prefix {shown whole : List Entry} (hs : whole.Pairwise (order.le · ·)) (hp : shown <+: whole) :
    ∀ e ∈ shown, ∀ e' ∈ whole.drop shown.length, ¬ order.Before e' e := by
  rw [List.prefix_iff_eq_append] at hp
  rw [← hp, List.pairwise_append] at hs
  intro e he e' he'
  exact le_iff_not_before.1 (hs.2.2 e he e' he')

end SortOrder

namespace Selection

variable {s : Selection} {e : Entry} {l : List Entry}

theorem admits_iff : s.admits e ↔
    (s.warningsOnly → e.report.severity = .warning) ∧ ∀ n ∈ s.minLines, n ≤ e.report.lineCount := by
  rw [admits, Bool.and_eq_true, Option.all_eq_true]
  cases s.warningsOnly <;> simp [FunctionReport.isWarning]

/-! ## Cutting off -/

theorem cut_prefix (s : Selection) (l : List Entry) : s.cut l <+: l := by
  unfold cut
  split
  · exact List.prefix_refl l
  · exact List.take_prefix _ l

theorem cut_cut (s : Selection) (l : List Entry) : s.cut (s.cut l) = s.cut l := by
  unfold cut
  split
  · rfl
  · rw [List.take_take, Nat.min_self]

/-! ## Selecting once more -/

theorem apply_prefix (s : Selection) (l : List Entry) : s.apply l <+: s.order.sort (l.filter s.admits) :=
  s.cut_prefix _

theorem admits_of_mem_apply (h : e ∈ s.apply l) : s.admits e := by
  have hmem := (s.apply_prefix l).subset h
  rw [SortOrder.sort, List.mem_mergeSort] at hmem
  exact (List.mem_filter.1 hmem).2

theorem pairwise_apply (s : Selection) (l : List Entry) : (s.apply l).Pairwise (s.order.le · ·) :=
  (s.order.pairwise_sort _).sublist (s.apply_prefix l).sublist

theorem apply_apply (s : Selection) (l : List Entry) : s.apply (s.apply l) = s.apply l := by
  have hfilter : (s.apply l).filter s.admits = s.apply l := List.filter_eq_self.2 fun _ => admits_of_mem_apply
  have hsort : s.order.sort (s.apply l) = s.apply l := List.mergeSort_of_pairwise (s.pairwise_apply l)
  calc s.apply (s.apply l)
      = s.cut (s.order.sort ((s.apply l).filter s.admits)) := rfl
    _ = s.cut (s.apply l) := by rw [hfilter, hsort]
    _ = s.apply l := s.cut_cut _

/-! ## Main theorem -/

/-- Without a limit, a selection is the stably sorted list of the entries that pass the filters. With a limit
it is the beginning of that list, and nothing that is cut off has to stand before what is shown. Selecting
once more changes nothing. -/
theorem apply_stably_sorted (s : Selection) (l : List Entry) :
    let whole := { s with top := none }.apply l
    whole.Perm (l.filter s.admits) ∧
      (∀ e, s.admits e ↔
        (s.warningsOnly → e.report.severity = .warning) ∧ ∀ n ∈ s.minLines, n ≤ e.report.lineCount) ∧
      whole.Pairwise (fun a b => ¬ s.order.Before b a) ∧
      (∀ k, whole.filter (s.order.key · = k) = (l.filter s.admits).filter (s.order.key · = k)) ∧
      (∀ n, let shown := { s with top := some n }.apply l
        shown <+: whole ∧ shown.length = min n.toNat (l.filter s.admits).length ∧
          ∀ e ∈ shown, ∀ e' ∈ whole.drop shown.length, ¬ s.order.Before e' e) ∧
      s.apply (s.apply l) = s.apply l := by
  intro whole
  have hwhole : whole = s.order.sort (l.filter s.admits) := rfl
  have hperm : whole.Perm (l.filter s.admits) := List.mergeSort_perm _ _
  refine ⟨hperm, fun e => admits_iff, ?_, ?_, ?_, s.apply_apply l⟩
  · exact (s.order.pairwise_sort _).imp SortOrder.le_iff_not_before.1
  · exact fun k => SortOrder.filter_key_sort k _
  · intro n shown
    have hshown : shown = whole.take n.toNat := rfl
    have hp : shown <+: whole := List.take_prefix _ _
    refine ⟨hp, ?_, SortOrder.not_before_of_prefix (s.order.pairwise_sort _) hp⟩
    rw [hshown, List.length_take, hperm.length_eq]

end Selection

end BodyLength
