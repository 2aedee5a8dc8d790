import BodyLength.Proofs.Files.Path
import Mathlib.Data.List.Infix
/-!
# Walks through a tree without links

Without links a walk takes one step after the other (`Disk.walk_eq_foldlM`), and where it comes
to is read off the steps alone. So it can be cut into a walk through the first steps and one
through the others.

The places on the way of a walk are more than the ancestors of where it ends. Which of them have
some property is compared with which of the ancestors do.
-/

namespace BodyLength

namespace FileTree

/-! ## Trees without links -/

mutual

/-- Whether there is no link in a tree. -/
def linkFree : FileTree → Bool
  | file _ => true
  | link _ => false
  | dir es => linkFreeIn es

/-- Whether there is no link among the entries of a directory and below them. -/
def linkFreeIn : List (FileName × FileTree) → Bool
  | [] => true
  | (_, t) :: es => linkFree t && linkFreeIn es

end

theorem linkFree_of_lookup {es : List (FileName × FileTree)} {name : FileName} {t : FileTree}
    (h : linkFreeIn es = true) (ht : es.lookup name = some t) : t.linkFree = true := by
  induction es with
  | nil => simp at ht
  | cons e es ih =>
    obtain ⟨n, u⟩ := e
    simp only [linkFreeIn, Bool.and_eq_true] at h
    rw [List.lookup_cons] at ht
    split at ht
    · simp_all
    · exact ih h.2 ht

theorem exists_dir_of_child? {t u : FileTree} {name : FileName} (h : t.child? name = some u) :
    ∃ es, t = .dir es ∧ es.lookup name = some u := by
  cases t with
  | dir es => exact ⟨es, rfl, h⟩
  | file _ | link _ => simp [child?, entries] at h

theorem linkFree_of_child? {t u : FileTree} {name : FileName} (h : t.linkFree = true)
    (hu : t.child? name = some u) : u.linkFree = true := by
  obtain ⟨es, rfl, hes⟩ := exists_dir_of_child? hu
  rw [linkFree] at h
  exact linkFree_of_lookup h hes

theorem linkFree_of_at? {t u : FileTree} {place : List FileName} (h : t.linkFree = true)
    (hu : t.at? place = some u) : u.linkFree = true := by
  induction place generalizing t with
  | nil => simp_all [at?]
  | cons n ns ih =>
    obtain ⟨v, hv, hvu⟩ := Option.bind_eq_some_iff.1 hu
    exact ih (linkFree_of_child? h hv) hvu

theorem at?_append (t : FileTree) (above below : List FileName) :
    t.at? (above ++ below) = (t.at? above).bind (·.at? below) := by
  induction above generalizing t with
  | nil => rfl
  | cons n ns ih => simp [at?, ih, Option.bind_assoc]

theorem at?_concat (t : FileTree) (place : List FileName) (name : FileName) :
    t.at? (place ++ [name]) = (t.at? place).bind (·.child? name) := by
  simp [at?_append, at?]

/-- What lies above something is a directory. -/
theorem exists_dir_of_at?_concat {t u : FileTree} {place : List FileName} {name : FileName}
    (h : t.at? (place ++ [name]) = some u) :
    ∃ es, t.at? place = some (.dir es) ∧ es.lookup name = some u := by
  rw [at?_concat] at h
  obtain ⟨v, hv, hvu⟩ := Option.bind_eq_some_iff.1 h
  obtain ⟨es, rfl, hes⟩ := exists_dir_of_child? hvu
  exact ⟨es, hv, hes⟩

end FileTree

namespace PathStep

/-- Where a step leads to from a place. -/
def move (place : List FileName) : PathStep → List FileName
  | stay => place
  | up => place.dropLast
  | enter name => place ++ [name]

/-! ## The way and the ancestors

The way of some steps, `steps.scanl move []`, are the places that they come through from the root
of a tree on. -/

/-- The steps that lead elsewhere. -/
def moves (steps : List PathStep) : List PathStep := steps.filter (· ≠ .stay)

theorem scanl_move_concat (steps : List PathStep) (step : PathStep) :
    ((steps ++ [step]).scanl move []).reverse =
      step.move (steps.foldl move []) :: (steps.scanl move []).reverse := by
  simp [List.scanl_append]

theorem dropLast_scanl_move_concat (steps : List PathStep) (step : PathStep) :
    ((steps ++ [step]).scanl move []).dropLast = steps.scanl move [] := by
  simp [List.scanl_append]

/-- A way ends where its steps lead. -/
theorem reverse_scanl_move (steps : List PathStep) :
    (steps.scanl move []).reverse =
      steps.foldl move [] :: (steps.scanl move []).dropLast.reverse := by
  have hlast := List.dropLast_append_getLast (List.scanl_ne_nil (f := move) (b := []) (l := steps))
  rw [List.getLast_scanl] at hlast
  rw [← List.reverse_concat, hlast]

theorem foldl_move_moves (steps : List PathStep) (place : List FileName) :
    (moves steps).foldl move place = steps.foldl move place := by
  induction steps generalizing place with
  | nil => rfl
  | cons step steps ih =>
    cases step with
    | stay => exact ih place
    | up | enter _ => exact ih _

theorem moves_subset (steps : List PathStep) : moves steps ⊆ steps := List.filter_subset_self ..

theorem moves_append (steps more : List PathStep) : moves (steps ++ more) = moves steps ++ moves more :=
  List.filter_append ..

theorem reverse_inits_concat (place : List FileName) (name : FileName) :
    (place ++ [name]).inits.reverse = (place ++ [name]) :: place.inits.reverse := by
  simp [List.inits_append]

theorem find?_inits_self {p : List FileName → Bool} {place : List FileName} (h : p place = true) :
    place.inits.reverse.find? p = some place := by
  rcases List.eq_nil_or_concat' place with rfl | ⟨above, name, rfl⟩
  · simpa using h
  · rw [reverse_inits_concat, List.find?_cons_of_pos h]

/-- If the last place on a way with some property is an ancestor of where the way ends, it is the
nearest ancestor with the property. -/
theorem find?_inits_of_find?_way {p : List FileName → Bool} {steps : List PathStep}
    {found : Option (List FileName)} (hfound : (steps.scanl move []).reverse.find? p = found)
    (hbelow : ∀ x, found = some x → x <+: steps.foldl move []) :
    (steps.foldl move []).inits.reverse.find? p = found := by
  -- by the last step: only one that goes up leaves a place that is no ancestor any more
  induction steps using List.reverseRecOn with
  | nil => simpa using hfound
  | append_singleton steps step ih =>
    rw [scanl_move_concat] at hfound
    rw [List.foldl_append, List.foldl_cons, List.foldl_nil] at hbelow ⊢
    generalize steps.foldl move [] = place at *
    by_cases hp : p (step.move place) = true
    · rw [find?_inits_self hp, ← hfound, List.find?_cons_of_pos hp]
    rw [List.find?_cons_of_neg hp] at hfound
    cases step with
    | stay => exact ih hfound hbelow
    | up =>
      rcases List.eq_nil_or_concat' place with rfl | ⟨above, name, rfl⟩
      · exact ih hfound hbelow
      · simp only [move, List.dropLast_concat] at hbelow ⊢
        have hrest := ih hfound fun x hx => (hbelow x hx).trans (List.prefix_append _ _)
        rw [reverse_inits_concat, List.find?_cons] at hrest
        split at hrest
        · -- the directory that is left would be an ancestor of its parent
          have hle := (hbelow _ hrest.symm).length_le
          rw [List.length_append, List.length_singleton] at hle
          omega
        · exact hrest
    | enter name =>
      rw [move] at hp hbelow ⊢
      rw [reverse_inits_concat, List.find?_cons_of_neg hp]
      refine ih hfound fun x hx => ?_
      rcases List.prefix_concat_iff.1 (hbelow x hx) with rfl | hx'
      · exact absurd (List.find?_some (hfound.trans hx)) hp
      · exact hx'

/-- Without two dots a way only comes through ancestors of where it ends. -/
theorem prefix_of_mem_way {steps : List PathStep} (h : up ∉ steps) {x : List FileName}
    (hx : x ∈ steps.scanl move []) : x <+: steps.foldl move [] := by
  induction steps using List.reverseRecOn with
  | nil => simp_all
  | append_singleton steps step ih =>
    rw [← List.mem_reverse, scanl_move_concat, List.mem_cons, List.mem_reverse] at hx
    rw [List.foldl_append, List.foldl_cons, List.foldl_nil]
    rcases hx with rfl | hx
    · exact List.prefix_rfl
    · have hx := ih (fun hup => h (List.mem_append_left _ hup)) hx
      cases step with
      | stay => exact hx
      | up => simp at h
      | enter name => exact hx.trans (List.prefix_append _ _)

end PathStep

namespace Disk

/-! ## One step, and many -/

/-- The place that a step leads to from the directory `place` of a tree without links. -/
def advance (root : FileTree) (place : List FileName) (step : PathStep) :
    Except FileFault (List FileName) :=
  match root.at? place with
  | some (.dir es) =>
    match step with
    | .stay => .ok place
    | .up => .ok place.dropLast
    | .enter name =>
      if nameLimit < name.length then .error .nameTooLong
      else
        match es.lookup name with
        | none => .error .notFound
        | some _ => .ok (place ++ [name])
  | _ => .error .notDirectory

variable {root : FileTree}

theorem advance_eq_ok {place next : List FileName} {step : PathStep} :
    advance root place step = .ok next ↔
      next = step.move place ∧ ∃ es, root.at? place = some (.dir es) ∧
        ∀ name, step = .enter name →
          name.length ≤ nameLimit ∧ ∃ t, es.lookup name = some t := by
  unfold advance
  split
  · rename_i es hes
    simp only [hes, Option.some.injEq, FileTree.dir.injEq, exists_eq_left']
    cases step with
    | stay => simp [PathStep.move, Eq.comm (a := next)]
    | up => simp [PathStep.move, Eq.comm (a := next)]
    | enter name =>
      by_cases hlong : nameLimit < name.length
      · simp [hlong, Nat.not_le.2 hlong]
      · cases hname : es.lookup name <;>
          simp [PathStep.move, hlong, hname, Eq.comm (a := next), Nat.not_lt.1 hlong]
  · rename_i hdir
    simp only [reduceCtorEq, false_iff]
    rintro ⟨-, es, hes, -⟩
    exact hdir es hes

theorem walk_cons (h : root.linkFree = true) (links : Nat) (place : List FileName)
    (step : PathStep) (rest : List PathStep) :
    walk root links place (step :: rest) =
      (advance root place step).bind (walk root links · rest) := by
  unfold advance
  rw [walk.eq_def]
  cases hplace : root.at? place with
  | none => rfl
  | some t =>
    cases t with
    | file _ | link _ => rfl
    | dir es =>
      have hes : FileTree.linkFreeIn es = true := by
        simpa [FileTree.linkFree] using FileTree.linkFree_of_at? h hplace
      cases step with
      | stay | up => rfl
      | enter name =>
        by_cases hlong : nameLimit < name.length
        · simp [hlong, Except.bind]
        · cases hname : es.lookup name with
          | none => simp [hlong, hname, Except.bind]
          | some u =>
            cases u with
            | file _ | dir _ => simp [hlong, hname, Except.bind]
            | link _ => simpa [FileTree.linkFree] using FileTree.linkFree_of_lookup hes hname

/-- Without links a walk is one step after the other. -/
theorem walk_eq_foldlM (h : root.linkFree = true) (links : Nat) (place : List FileName)
    (steps : List PathStep) : walk root links place steps = steps.foldlM (advance root) place := by
  induction steps generalizing place with
  | nil => simp [walk, pure, Except.pure]
  | cons step rest ih =>
    rw [walk_cons h, List.foldlM_cons]
    simp only [ih]
    rfl

theorem foldlM_advance_append {steps more : List PathStep} {place last : List FileName} :
    (steps ++ more).foldlM (advance root) place = .ok last ↔
      ∃ middle, steps.foldlM (advance root) place = .ok middle ∧
        more.foldlM (advance root) middle = .ok last := by
  rw [List.foldlM_append]
  cases steps.foldlM (advance root) place <;> simp [bind, Except.bind]

/-- A walk that is not refused comes to the place that its steps say. -/
theorem eq_foldl_of_foldlM {steps : List PathStep} {place last : List FileName}
    (h : steps.foldlM (advance root) place = .ok last) : last = steps.foldl PathStep.move place := by
  induction steps generalizing place with
  | nil => simpa [pure, Except.pure, eq_comm] using h
  | cons step rest ih =>
    rw [List.foldlM_cons] at h
    cases hstep : advance root place step with
    | error e => simp [hstep, bind, Except.bind] at h
    | ok next =>
      rw [List.foldl_cons, ← (advance_eq_ok.1 hstep).1]
      exact ih (by simpa [hstep, bind, Except.bind] using h)

theorem foldlM_enter {place names : List FileName} {t : FileTree}
    (ht : root.at? (place ++ names) = some t) (hshort : ∀ n ∈ names, n.length ≤ nameLimit) :
    (names.map PathStep.enter).foldlM (advance root) place = .ok (place ++ names) := by
  induction names generalizing place with
  | nil => simp [pure, Except.pure]
  | cons n ns ih =>
    have hsplit : place ++ n :: ns = (place ++ [n]) ++ ns := by simp
    rw [hsplit] at ht ⊢
    obtain ⟨u, hu, -⟩ := Option.bind_eq_some_iff.1 ((root.at?_append _ _).symm.trans ht)
    obtain ⟨es, hes, hn⟩ := FileTree.exists_dir_of_at?_concat hu
    have hstep : advance root place (.enter n) = .ok (place ++ [n]) := by
      refine advance_eq_ok.2 ⟨rfl, es, hes, ?_⟩
      rintro _ ⟨⟩
      exact ⟨hshort n (by simp), u, hn⟩
    rw [List.map_cons, List.foldlM_cons, hstep]
    exact ih ht fun m hm => hshort m (List.mem_cons_of_mem n hm)

/-- A walk that comes to a file enters it in its last step. -/
theorem eq_enter_of_foldlM {steps : List PathStep} {place : List FileName} {content : List UInt8}
    (hroot : ∃ es, root.at? [] = some (.dir es))
    (h : steps.foldlM (advance root) [] = .ok place) (hfile : root.at? place = some (.file content)) :
    ∃ before name, steps = before ++ [.enter name] ∧ place = before.foldl PathStep.move [] ++ [name] := by
  rcases List.eq_nil_or_concat' steps with rfl | ⟨before, step, rfl⟩
  · obtain ⟨es, hes⟩ := hroot
    obtain rfl : place = [] := by simpa using eq_foldl_of_foldlM h
    rw [hes] at hfile
    cases hfile
  · obtain ⟨above, habove, hstep⟩ := foldlM_advance_append.1 h
    rw [List.foldlM_cons] at hstep
    simp only [List.foldlM_nil, bind_pure] at hstep
    obtain ⟨rfl, es, hes, -⟩ := advance_eq_ok.1 hstep
    cases step with
    | stay =>
      rw [PathStep.move, hes] at hfile
      cases hfile
    | up =>
      have hdir : ∃ es, root.at? above.dropLast = some (.dir es) := by
        rcases List.eq_nil_or_concat' above with rfl | ⟨higher, name, rfl⟩
        · exact ⟨es, hes⟩
        · obtain ⟨es', hes', -⟩ := FileTree.exists_dir_of_at?_concat hes
          exact ⟨es', by rwa [List.dropLast_concat]⟩
      obtain ⟨es', hes'⟩ := hdir
      rw [PathStep.move, hes'] at hfile
      cases hfile
    | enter name => exact ⟨before, name, rfl, by rw [eq_foldl_of_foldlM habove]; rfl⟩

/-! ## Looking up paths -/

variable {d : Disk} {path : FilePath}

theorem locate_eq (h : d.root.linkFree = true) (hne : path ≠ [])
    (hzero : 0 ∉ path) (hshort : path.length ≤ pathLimit) :
    d.locate path = (PathStep.ofPath path).foldlM (advance d.root)
      (if Path.isAbsolute path then [] else d.workingDir) := by
  simp [locate, hne, hzero, Nat.not_lt.2 hshort, walk_eq_foldlM h]

/-- With the root as working directory, all paths start there. -/
theorem find_from_root (h : d.root.linkFree = true) (hdir : d.workingDir = [])
    (hpath : path ≠ [] ∧ 0 ∉ path ∧ path.length ≤ pathLimit) :
    d.find path = (do
      let place ← (PathStep.ofPath path).foldlM (advance d.root) []
      (d.root.at? place).elim (.error .notFound) .ok) := by
  obtain ⟨hne, hzero, hshort⟩ := hpath
  rw [find, locate_eq h hne hzero hshort, hdir, ite_self]
  cases (PathStep.ofPath path).foldlM (advance d.root) [] with
  | error e => rfl
  | ok place =>
    simp only [bind, Except.bind]
    cases d.root.at? place <;> rfl

theorem locate_of_isAbsolute (h : d.root.linkFree = true) (habs : Path.isAbsolute path = true)
    (hzero : 0 ∉ path) (hshort : path.length ≤ pathLimit) :
    d.locate path = (PathStep.ofPath path).foldlM (advance d.root) [] := by
  rw [locate_eq h (Path.ne_nil_of_isAbsolute habs) hzero hshort, if_pos habs]

theorem locate_eq_ok {place : List FileName} (h : d.locate path = .ok place) :
    path ≠ [] ∧ 0 ∉ path ∧ path.length ≤ pathLimit := by
  unfold locate at h
  split at h
  · cases h
  split at h
  · cases h
  split at h
  · cases h
  simp_all

theorem locate_of_exists (h : d.exists? path = true) :
    ∃ place, d.locate path = .ok place := by
  unfold exists? find at h
  cases hloc : d.locate path with
  | error e => simp [hloc, Except.toBool] at h
  | ok place => exact ⟨place, rfl⟩

end Disk

end BodyLength
