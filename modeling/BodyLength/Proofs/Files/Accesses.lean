import BodyLength.Proofs.Files.Sources
/-!
# When a search fails

A search of a directory makes some accesses to the disk (`FileTree.Visits`). If none of them
fails it finds the source files of the tree, and otherwise it fails as one of them does
(`Disk.collect_yields`). Which of them it is depends on the order in which directories list their
entries, but whether there is one does not.
-/

namespace BodyLength

namespace FileTree

/-- The accesses of a search that goes into a tree to which some names lead from `top`. -/
inductive Visits (top : FilePath) : List FileName → FileTree → DirAccess → Prop where
  | list (names : List FileName) (es : List (FileName × FileTree)) :
      Visits top names (dir es) (.list (Path.joinAll top names))
  | next {names : List FileName} {es : List (FileName × FileTree)} {e : FileName × FileTree} :
      e ∈ es → Visits top names (dir es) (.next (Path.joinAll top (names ++ [e.1])))
  | inspect {names : List FileName} {es : List (FileName × FileTree)} {e : FileName × FileTree} :
      e ∈ es → Visits top names (dir es) (.inspect (Path.joinAll top (names ++ [e.1])))
  /-- An entry is gone into unless its name is one of those that are skipped. -/
  | enter {names : List FileName} {es : List (FileName × FileTree)} {e : FileName × FileTree} {a : DirAccess} :
      e ∈ es → ¬ SkippedName e.1 → Visits top (names ++ [e.1]) e.2 a → Visits top names (dir es) a

/-- The accesses of a search through the entries of a directory. -/
def VisitsIn (top : FilePath) (above : List FileName) (es : List (FileName × FileTree)) (a : DirAccess) : Prop :=
  ∃ e ∈ es, a = .next (Path.joinAll top (above ++ [e.1])) ∨ a = .inspect (Path.joinAll top (above ++ [e.1])) ∨
    (¬ SkippedName e.1 ∧ Visits top (above ++ [e.1]) e.2 a)

variable {top : FilePath} {names : List FileName} {es : List (FileName × FileTree)} {a : DirAccess}

theorem visits_dir_iff :
    Visits top names (dir es) a ↔ a = .list (Path.joinAll top names) ∨ VisitsIn top names es a := by
  constructor
  · rintro (_ | he | he | ⟨he, hskip, h⟩)
    · exact .inl rfl
    · exact .inr ⟨_, he, .inl rfl⟩
    · exact .inr ⟨_, he, .inr (.inl rfl)⟩
    · exact .inr ⟨_, he, .inr (.inr ⟨hskip, h⟩)⟩
  · rintro (rfl | ⟨e, he, rfl | rfl | ⟨hskip, h⟩⟩)
    · exact .list names es
    · exact .next he
    · exact .inspect he
    · exact .enter he hskip h

theorem not_visits_file (content : List UInt8) : ¬ Visits top names (file content) a := nofun

theorem not_visits_link (target : FilePath) : ¬ Visits top names (link target) a := nofun

end FileTree

namespace Disk

/-! ## Actions that may fail -/

/-- An action that makes some accesses comes to `x` if none of them fails, and otherwise fails as
one of them does. -/
def Yields (d : Disk) {α : Type} (accesses : DirAccess → Prop) (action : Except Failure α) (x : α) : Prop :=
  ((∀ a, accesses a → d.fault? a = none) ∧ action = .ok x) ∨
    ∃ a e, accesses a ∧ d.fault? a = some e ∧ action = .error ⟨a.attempts, .file e⟩

namespace Yields

variable {d : Disk} {α β : Type} {accesses others : DirAccess → Prop} {action : Except Failure α} {x : α}

theorem ok (d : Disk) (x : α) : d.Yields (fun _ => False) (.ok x) x := .inl ⟨nofun, rfl⟩

theorem access (d : Disk) (a : DirAccess) : d.Yields (· = a) (d.access a) () := by
  unfold Disk.access
  cases h : d.fault? a with
  | none => exact .inl ⟨fun b hb => hb ▸ h, rfl⟩
  | some e => exact .inr ⟨a, e, rfl, h, rfl⟩

theorem congr (h : d.Yields accesses action x) (hiff : ∀ a, accesses a ↔ others a) : d.Yields others action x := by
  obtain rfl : accesses = others := funext fun a => propext (hiff a)
  exact h

theorem bind (h : d.Yields accesses action x) {next : α → Except Failure β} {y : β} (hnext : d.Yields others (next x) y) :
    d.Yields (fun a => accesses a ∨ others a) (action >>= next) y := by
  rcases h with ⟨hok, rfl⟩ | ⟨a, e, ha, he, rfl⟩
  · rcases hnext with ⟨hok', hy⟩ | ⟨a, e, ha, he, hy⟩
    · exact .inl ⟨fun a => (Or.elim · (hok a) (hok' a)), hy⟩
    · exact .inr ⟨a, e, .inr ha, he, hy⟩
  · exact .inr ⟨a, e, .inl ha, he, rfl⟩

theorem map (h : d.Yields accesses action x) (g : α → β) : d.Yields accesses (action >>= fun x => pure (g x)) (g x) :=
  (h.bind (ok d (g x))).congr fun a => by rw [or_false]

theorem ok_iff (h : d.Yields accesses action x) : (∃ y, action = .ok y) ↔ ∀ a, accesses a → d.fault? a = none := by
  rcases h with ⟨hok, rfl⟩ | ⟨a, e, ha, he, rfl⟩
  · exact ⟨fun _ => hok, fun _ => ⟨x, rfl⟩⟩
  · constructor
    · rintro ⟨y, hy⟩
      cases hy
    · intro hok
      rw [hok a ha] at he
      cases he

theorem eq_of_ok (h : d.Yields accesses action x) {y : α} (hy : action = .ok y) : y = x := by
  rcases h with ⟨-, rfl⟩ | ⟨a, e, -, -, rfl⟩
  · exact (Except.ok.inj hy).symm
  · cases hy

end Yields

/-! ## The search -/

section
variable (d : Disk) (f : FileFilter) (top : FilePath)

mutual

theorem sources_yields (above : List FileName) (name : FileName) (t : FileTree) :
    d.Yields (fun a => ¬ FileTree.SkippedName name ∧ FileTree.Visits top (above ++ [name]) t a)
      (d.sources f top above name t) (FileTree.sources f above name t) := by
  cases t with
  | file content =>
    exact (Yields.ok d _).congr fun a => by simp [FileTree.not_visits_file]
  | link target =>
    exact (Yields.ok d _).congr fun a => by simp [FileTree.not_visits_link]
  | dir es =>
    rw [sources, FileTree.sources]
    split
    · rename_i hskip
      exact (Yields.ok d _).congr fun a => by simp [(FileTree.skips_iff name).1 hskip]
    · rename_i hskip
      refine ((Yields.access d _).bind (sourcesIn_yields (above ++ [name]) es)).congr fun a => ?_
      rw [FileTree.visits_dir_iff, and_iff_right (mt (FileTree.skips_iff name).2 hskip)]

theorem sourcesIn_yields (above : List FileName) (es : List (FileName × FileTree)) :
    d.Yields (FileTree.VisitsIn top above es) (d.sourcesIn f top above es) (FileTree.sourcesIn f above es) := by
  cases es with
  | nil => exact (Yields.ok d _).congr fun a => by simp [FileTree.VisitsIn]
  | cons e es =>
    obtain ⟨name, t⟩ := e
    rw [sourcesIn, FileTree.sourcesIn]
    have hothers := (sourcesIn_yields above es).map (FileTree.sources f above name t ++ ·)
    refine ((Yields.access d _).bind ((Yields.access d _).bind
      ((sources_yields above name t).bind hothers))).congr fun a => ?_
    simp only [FileTree.VisitsIn, List.exists_mem_cons_iff, or_assoc]

end

end

/-- Without a failure, the source files below a directory are found, in order. -/
theorem collect_yields {d : Disk} {path : FilePath} {es : List (FileName × FileTree)}
    (h : d.find path = .ok (.dir es)) (f : FileFilter) :
    d.Yields (FileTree.Visits path [] (.dir es)) (d.collect f path)
      (((FileTree.sourcesIn f [] es).mergeSort FileTree.namesLe).map (Path.joinAll path)) := by
  have hfound := (sourcesIn_yields d f path [] es).map fun found =>
    (found.mergeSort FileTree.namesLe).map (Path.joinAll path)
  rw [collect, h]
  refine ((Yields.access d (.list path)).bind hfound).congr fun a => ?_
  rw [FileTree.visits_dir_iff, Path.joinAll, List.foldl_nil]

end Disk

end BodyLength
