import BodyLength.Proofs.Files.Accesses
/-!
# Trees that list their entries in another order

In what order directories list their entries makes no difference to what is found at a place
(`FileTree.Relisted.samePlaces`), and so none to where a walk leads (`Disk.walk_congr`). Nor does
it to which accesses a search makes (`FileTree.Relisted.visits_iff`).
-/

namespace BodyLength

namespace FileTree

/-- A tree with the entries of some of its directories in another order. -/
inductive Relisted : FileTree → FileTree → Prop where
  | refl (t : FileTree) : Relisted t t
  | trans {t u v : FileTree} : Relisted t u → Relisted u v → Relisted t v
  /-- Another order in the directory itself. -/
  | perm {es es' : List (FileName × FileTree)} : es.Perm es' → Relisted (dir es) (dir es')
  /-- Another order in one of its entries. -/
  | entry {t u : FileTree} (before after : List (FileName × FileTree)) (name : FileName) :
      Relisted t u →
        Relisted (dir (before ++ (name, t) :: after)) (dir (before ++ (name, u) :: after))

/-- A tree without what is below it. -/
def bare : FileTree → FileTree
  | dir _ => dir []
  | t => t

section
variable {o : Option FileTree}

theorem map_bare_eq_file {content : List UInt8} :
    o.map bare = some (file content) ↔ o = some (file content) := by
  rcases o with _ | _ | _ | _ <;> simp [bare]

theorem map_bare_eq_link {target : FilePath} :
    o.map bare = some (link target) ↔ o = some (link target) := by
  rcases o with _ | _ | _ | _ <;> simp [bare]

theorem map_bare_eq_dir : o.map bare = some (dir []) ↔ ∃ es, o = some (dir es) := by
  rcases o with _ | _ | _ | _ <;> simp [bare]

end

/-- Whether there are files, links and directories at the same places. -/
def SamePlaces (t u : FileTree) : Prop := ∀ place, (t.at? place).map bare = (u.at? place).map bare

section
variable {t u : FileTree} (h : SamePlaces t u) {place : List FileName}
include h

theorem SamePlaces.at?_eq_file {content : List UInt8} :
    t.at? place = some (file content) ↔ u.at? place = some (file content) := by
  rw [← map_bare_eq_file, h place, map_bare_eq_file]

theorem SamePlaces.at?_eq_link {target : FilePath} :
    t.at? place = some (link target) ↔ u.at? place = some (link target) := by
  rw [← map_bare_eq_link, h place, map_bare_eq_link]

theorem SamePlaces.at?_eq_dir :
    (∃ es, t.at? place = some (dir es)) ↔ ∃ es, u.at? place = some (dir es) := by
  rw [← map_bare_eq_dir, h place, map_bare_eq_dir]

/-- Directories at the same place have the same entries. -/
theorem SamePlaces.exists_dir {es : List (FileName × FileTree)} (hes : t.at? place = some (dir es)) :
    ∃ es', u.at? place = some (dir es') ∧
      ∀ name, (es.lookup name).map bare = (es'.lookup name).map bare := by
  obtain ⟨es', hes'⟩ := h.at?_eq_dir.1 ⟨es, hes⟩
  refine ⟨es', hes', fun name => ?_⟩
  have hname := h (place ++ [name])
  rwa [at?_concat, at?_concat, hes, hes'] at hname

end

theorem samePlaces_dir {es es' : List (FileName × FileTree)}
    (h : ∀ name, Option.Rel SamePlaces (es.lookup name) (es'.lookup name)) :
    SamePlaces (dir es) (dir es') := by
  intro place
  cases place with
  | nil => rfl
  | cons n ns =>
    simp only [at?, child?, entries]
    have hn := h n
    generalize es.lookup n = a, es'.lookup n = b at hn
    cases hn with
    | none => rfl
    | some hsame => exact hsame ns

theorem lookup_eq_of_perm {es es' : List (FileName × FileTree)} (hp : es.Perm es')
    (h : (es.map Prod.fst).Nodup) (name : FileName) : es.lookup name = es'.lookup name := by
  have h' : (es'.map Prod.fst).Nodup := (hp.map Prod.fst).nodup_iff.1 h
  ext t
  rw [lookup_eq_some_iff h, lookup_eq_some_iff h', hp.mem_iff]

theorem Relisted.samePlaces {t u : FileTree} (hr : Relisted t u) (h : t.WellNamed) :
    u.WellNamed ∧ SamePlaces t u := by
  have hself (t : FileTree) : SamePlaces t t := fun _ => rfl
  have hrefl (o : Option FileTree) : Option.Rel SamePlaces o o := by
    cases o with
    | none => exact .none
    | some t => exact .some (hself t)
  induction hr with
  | refl t => exact ⟨h, hself t⟩
  | trans _ _ ih ih' =>
    obtain ⟨hu, htu⟩ := ih h
    obtain ⟨hv, huv⟩ := ih' hu
    exact ⟨hv, fun place => (htu place).trans (huv place)⟩
  | perm hp =>
    cases h with
    | dir distinct names below =>
      refine ⟨.dir ((hp.map Prod.fst).nodup_iff.1 distinct) ?_ ?_, samePlaces_dir fun name => ?_⟩
      · exact fun e he => names e (hp.mem_iff.2 he)
      · exact fun e he => below e (hp.mem_iff.2 he)
      · rw [lookup_eq_of_perm hp distinct]
        exact hrefl _
  | @entry t u before after name _ ih =>
    cases h with
    | dir distinct names below =>
      obtain ⟨hu, htu⟩ := ih (below (name, t) (by simp))
      refine ⟨.dir (by simpa using distinct) ?_ ?_, samePlaces_dir fun n => ?_⟩
      · intro e he
        rcases List.mem_append.1 he with he | he
        · exact names e (List.mem_append_left _ he)
        rcases List.mem_cons.1 he with rfl | he
        · exact names (name, t) (by simp)
        · exact names e (by simp [he])
      · intro e he
        rcases List.mem_append.1 he with he | he
        · exact below e (List.mem_append_left _ he)
        rcases List.mem_cons.1 he with rfl | he
        · exact hu
        · exact below e (by simp [he])
      · rw [List.lookup_append, List.lookup_append, List.lookup_cons, List.lookup_cons]
        cases before.lookup n with
        | some v => exact hrefl (some v)
        | none =>
          rw [Option.none_or, Option.none_or]
          split
          · exact .some htu
          · exact hrefl _

/-- What is at a place is listed in another order as well, or is the same. -/
theorem Relisted.exists_at? {t u v : FileTree} (hr : Relisted t u) (h : t.WellNamed) {place : List FileName}
    (hv : t.at? place = some v) : ∃ w, u.at? place = some w ∧ Relisted v w := by
  induction hr generalizing place v with
  | refl t => exact ⟨v, hv, .refl v⟩
  | trans htu _ ih ih' =>
    obtain ⟨w, hw, hvw⟩ := ih h hv
    obtain ⟨x, hx, hwx⟩ := ih' (htu.samePlaces h).1 hw
    exact ⟨x, hx, hvw.trans hwx⟩
  | perm hp =>
    cases h with
    | dir distinct _ _ =>
      cases place with
      | nil =>
        obtain rfl := Option.some.inj hv
        exact ⟨_, rfl, .perm hp⟩
      | cons n ns =>
        refine ⟨v, ?_, .refl v⟩
        simpa only [at?, child?, entries, lookup_eq_of_perm hp distinct] using hv
  | @entry t u before after name htu ih =>
    cases place with
    | nil =>
      obtain rfl := Option.some.inj hv
      exact ⟨_, rfl, .entry before after name htu⟩
    | cons n ns =>
      simp only [at?, child?, entries, List.lookup_append, List.lookup_cons] at hv ⊢
      cases hbefore : before.lookup n with
      | some x => exact ⟨v, by simpa [hbefore] using hv, .refl v⟩
      | none =>
        simp only [hbefore, Option.none_or] at hv ⊢
        split at hv
        · cases h with
          | dir _ _ below => exact ih (below (name, t) (by simp)) hv
        · exact ⟨v, hv, .refl v⟩

theorem Relisted.visits_iff {t u : FileTree} (hr : Relisted t u) {top : FilePath} {names : List FileName}
    {a : DirAccess} : Visits top names t a ↔ Visits top names u a := by
  induction hr generalizing names with
  | refl t => rfl
  | trans _ _ ih ih' => exact ih.trans ih'
  | perm hp => simp only [visits_dir_iff, VisitsIn, hp.mem_iff]
  | entry before after name _ ih =>
    simp only [visits_dir_iff, VisitsIn, List.mem_append, List.mem_cons, or_and_right, exists_or, exists_eq_left, ih]

end FileTree

namespace Disk

open FileTree (map_bare_eq_link)

section
variable {root root' : FileTree} (h : root.SamePlaces root')
include h

theorem walk_congr (links : Nat) (place : List FileName) (steps : List PathStep) :
    walk root links place steps = walk root' links place steps := by
  have hlink {es es' : List (FileName × FileTree)} {name : FileName} {target : FilePath}
      (hsame : ∀ name, (es.lookup name).map FileTree.bare = (es'.lookup name).map FileTree.bare)
      (hes : es.lookup name = some (.link target)) : es'.lookup name = some (.link target) := by
    rwa [← map_bare_eq_link, hsame name, map_bare_eq_link] at hes
  fun_induction walk root links place steps with
  | case1 => rw [walk]
  | case2 links place rest es hes ih =>
    obtain ⟨es', hes', -⟩ := h.exists_dir hes
    simp [walk.eq_def root' _ _ (.stay :: _), hes', ih]
  | case3 links place rest es hes ih =>
    obtain ⟨es', hes', -⟩ := h.exists_dir hes
    simp [walk.eq_def root' _ _ (.up :: _), hes', ih]
  | case4 links place rest es hes name hlong =>
    obtain ⟨es', hes', -⟩ := h.exists_dir hes
    simp [walk.eq_def root' _ _ (.enter _ :: _), hes', hlong]
  | case5 links place rest es hes name hlong hnone =>
    obtain ⟨es', hes', hsame⟩ := h.exists_dir hes
    have hnone' : es'.lookup name = none := by
      rw [← Option.map_eq_none_iff, ← hsame name, hnone]
      rfl
    simp [walk.eq_def root' _ _ (.enter _ :: _), hes', hlong, hnone']
  | case6 place rest es hes name hlong target htarget =>
    obtain ⟨es', hes', hsame⟩ := h.exists_dir hes
    simp [walk.eq_def root' _ _ (.enter _ :: _), hes', hlong, hlink hsame htarget]
  | case7 place rest es hes name hlong target htarget links hempty =>
    obtain ⟨es', hes', hsame⟩ := h.exists_dir hes
    simp [walk.eq_def root' _ _ (.enter _ :: _), hes', hlong, hlink hsame htarget, hempty]
  | case8 place rest es hes name hlong target htarget links hempty ih =>
    obtain ⟨es', hes', hsame⟩ := h.exists_dir hes
    simp only [dite_eq_ite] at ih
    simp [walk.eq_def root' _ _ (.enter _ :: _), hes', hlong, hlink hsame htarget, hempty, ih]
  | case9 links place rest es hes name hlong t hnolink ht ih =>
    obtain ⟨es', hes', hsame⟩ := h.exists_dir hes
    obtain ⟨u, hu, -⟩ := Option.map_eq_some_iff.1 ((hsame name).symm.trans (congrArg _ ht))
    have hnolink' (target : FilePath) : u ≠ .link target := by
      rintro rfl
      have ht' : es.lookup name = some (.link target) := hlink (fun name => (hsame name).symm) hu
      exact hnolink target (Option.some.inj (ht.symm.trans ht'))
    rw [ih, walk.eq_def root' _ _ (.enter _ :: _)]
    cases u with
    | file _ | dir _ => simp [hes', hlong, hu]
    | link target => exact absurd rfl (hnolink' target)
  | case10 links place step rest hdir =>
    have hdir' : ∀ es, root'.at? place ≠ some (.dir es) := fun es hes =>
      (h.at?_eq_dir.2 ⟨es, hes⟩).elim hdir
    simp only [walk.eq_def root' _ _ (_ :: _)]

end

end Disk

end BodyLength
