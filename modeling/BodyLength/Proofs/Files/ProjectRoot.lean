import BodyLength.Files.ProjectRoot
import BodyLength.Proofs.Files.Walk
/-!
# Which project a path belongs to

The search for the root of a project takes components off the end of a path. So it comes
through the places on the way of the path (`Disk.trail`), from the last one to the root of the
tree, and stops at the first project among them. These are not the ancestors of what the path
names: a way may lead into a directory and out of it again.

The search finds the nearest ancestor with a project if and only if the last project on the way
is an ancestor, which holds for every path without two dots (`Disk.project_root_by_ancestry`).
-/

namespace BodyLength

/-! ## Projects in a tree -/

namespace FileTree

/-- Whether a place has an entry `.git`. -/
def hasProject (root : FileTree) (place : List FileName) : Bool :=
  (root.at? (place ++ [Disk.projectEntry])).isSome

/-- The nearest place with a project among a directory and its ancestors. -/
def nearestProject? (root : FileTree) (dir : List FileName) : Option (List FileName) :=
  dir.inits.reverse.find? root.hasProject

/-- The place itself, or the directory in which the file there is. -/
def directoryOf (root : FileTree) (place : List FileName) : List FileName :=
  match root.at? place with
  | some (.file _) => place.dropLast
  | _ => place

end FileTree

namespace Disk

/-- A disk without links and with a working directory. -/
structure Plain (d : Disk) : Prop where
  linkFree : d.root.linkFree = true
  working : ∃ es, d.root.at? d.workingDir = some (.dir es)
  names : ∀ n ∈ d.workingDir, IsName n

/-- The directories on the way of an absolute path, from the root on. -/
def trail (d : Disk) (path : FilePath) : List (List FileName) :=
  let places := (PathStep.moves (PathStep.ofPath path)).scanl PathStep.move []
  if d.isFile path then places.dropLast else places

/-- The last place with a project on the way of an absolute path. -/
def lastProject? (d : Disk) (path : FilePath) : Option (List FileName) :=
  (d.trail path).reverse.find? d.root.hasProject

end Disk

/-! ## The paths that the search tries -/

namespace Disk

open PathStep (within_absolute)

variable {d : Disk}

/-- An absolute path that can be looked up, also with a name put behind it that is no longer than
`.git`, and leads to a place. -/
structure Reaches (d : Disk) (path : FilePath) (place : List FileName) : Prop where
  absolute : Path.isAbsolute path = true
  zero : 0 ∉ path
  short : path.length + 5 ≤ pathLimit
  walk : (PathStep.within path).foldlM (advance d.root) [] = .ok place

namespace Reaches

variable {path : FilePath} {place : List FileName}

theorem locate_git (h : d.root.linkFree = true) (hr : d.Reaches path place) :
    d.locate (Path.join path projectEntry) = advance d.root place (.enter projectEntry) := by
  have hsteps : PathStep.ofPath projectEntry = [.enter projectEntry] := by decide +kernel
  have hzero : 0 ∉ Path.join path projectEntry := by
    intro hmem
    rcases Path.mem_join path projectEntry hmem with hmem | hmem | hmem
    · exact hr.zero hmem
    · exact absurd hmem (by decide)
    · exact absurd hmem (by decide +kernel)
  have hlength : projectEntry.length = 4 := by decide +kernel
  have hshort : (Path.join path projectEntry).length ≤ pathLimit := by
    have hjoin := Path.length_join_le path projectEntry
    rw [hlength] at hjoin
    exact hjoin.trans hr.short
  rw [locate_of_isAbsolute h (Path.isAbsolute_join path _ hr.absolute) hzero hshort,
    PathStep.ofPath_join (by decide +kernel) (by decide +kernel), hsteps, List.foldlM_append, hr.walk]
  show [PathStep.enter projectEntry].foldlM (advance d.root) place = _
  rw [List.foldlM_cons]
  simp only [List.foldlM_nil, bind_pure]

/-- The path leads to a project if there is a project at the place. -/
theorem exists_git (h : d.root.linkFree = true) (hr : d.Reaches path place) :
    d.exists? (Path.join path projectEntry) = d.root.hasProject place := by
  rw [exists?, find, hr.locate_git h, FileTree.hasProject, FileTree.at?_concat]
  unfold advance
  cases hplace : d.root.at? place with
  | none => rfl
  | some t =>
    cases t with
    | file _ | link _ => rfl
    | dir es =>
      have hlong : ¬ nameLimit < projectEntry.length := by decide +kernel
      cases hgit : es.lookup projectEntry with
      | none => simp [hlong, hgit, FileTree.child?, FileTree.entries, Except.toBool]
      | some u => simp [hlong, hgit, FileTree.child?, FileTree.entries, FileTree.at?_concat, hplace, Except.toBool]

theorem locate_of_hasProject (h : d.root.linkFree = true) (hr : d.Reaches path place)
    (hp : d.root.hasProject place = true) : d.locate path = .ok place := by
  rw [FileTree.hasProject, FileTree.at?_concat] at hp
  obtain ⟨t, ht⟩ := Option.isSome_iff_exists.1 hp
  obtain ⟨u, hu, hgit⟩ := Option.bind_eq_some_iff.1 ht
  obtain ⟨es, rfl, -⟩ := FileTree.exists_dir_of_child? hgit
  rw [locate_of_isAbsolute h hr.absolute hr.zero (Nat.le_of_add_right_le hr.short), PathStep.ofPath_eq,
    List.foldlM_append, hr.walk]
  split
  · simp [bind, Except.bind, advance, hu, pure, Except.pure]
  · rfl

end Reaches

/-! ### One after the other -/

section Candidates

variable {ps : List (List UInt8)} {place : List FileName}

theorem Reaches.steps_eq (hps : ∀ p ∈ ps, Byte.slash ∉ p) (hr : d.Reaches (Path.absolute ps) place) :
    (ps.reverse.filterMap PathStep.ofPiece).foldlM (advance d.root) [] = .ok place := by
  rw [← within_absolute hps]
  exact hr.walk

/-- A path that leads somewhere also does so without its last piece. -/
theorem Reaches.dropLast {p : List UInt8} (hps : ∀ q ∈ p :: ps, Byte.slash ∉ q)
    (hr : d.Reaches (Path.absolute (p :: ps)) place) :
    ∃ above, d.Reaches (Path.absolute ps) above ∧
      (PathStep.ofPiece p).toList.foldlM (advance d.root) above = .ok place := by
  have hps' : ∀ q ∈ ps, Byte.slash ∉ q := fun q hq => hps q (List.mem_cons_of_mem p hq)
  obtain ⟨s, hs⟩ := Path.absolute_prefix p ps
  have hsteps := hr.steps_eq hps
  rw [List.reverse_cons, List.filterMap_append] at hsteps
  obtain ⟨above, habove, hstep⟩ := foldlM_advance_append.1 hsteps
  refine ⟨above, ⟨by simp [Path.isAbsolute, Path.absolute], fun hzero => hr.zero ?_, ?_, ?_⟩, ?_⟩
  · exact hs ▸ List.mem_append_left s hzero
  · have hshort := hr.short
    rw [← hs, List.length_append] at hshort
    omega
  · rw [within_absolute hps', habove]
  · rwa [List.filterMap_cons, List.filterMap_nil] at hstep

/-- Idle pieces at the end make no difference. -/
theorem Reaches.dropIdle (hps : ∀ q ∈ ps, Byte.slash ∉ q) (hr : d.Reaches (Path.absolute ps) place) :
    d.Reaches (Path.absolute (ps.dropWhile Path.isIdle)) place := by
  induction ps with
  | nil => exact hr
  | cons p ps ih =>
    by_cases hp : Path.isIdle p = true
    · obtain ⟨above, habove, hstep⟩ := hr.dropLast hps
      have heq : place = above := by
        rw [eq_foldl_of_foldlM hstep]
        rcases PathStep.ofPiece_of_isIdle hp with hp | hp <;> rw [hp] <;> rfl
      rw [List.dropWhile_cons_of_pos hp]
      exact ih (fun q hq => hps q (List.mem_cons_of_mem p hq)) (heq ▸ habove)
    · rwa [List.dropWhile_cons_of_neg hp]

/-- The parents of an absolute path lead to the places on its way but the last one. -/
theorem forall₂_parentsOf (hps : ∀ q ∈ ps, Byte.slash ∉ q)
    (hr : d.Reaches (Path.absolute ps) place) :
    List.Forall₂ d.Reaches (Path.parentsOf [Byte.slash] ps)
      ((PathStep.moves (ps.reverse.filterMap PathStep.ofPiece)).scanl PathStep.move []).dropLast.reverse := by
  induction ps generalizing place with
  | nil => exact .nil
  | cons p ps ih =>
    have hps' : ∀ q ∈ ps, Byte.slash ∉ q := fun q hq => hps q (List.mem_cons_of_mem p hq)
    obtain ⟨above, habove, hstep⟩ := hr.dropLast hps
    have hrest := ih hps' habove
    rw [List.reverse_cons, List.filterMap_append, PathStep.moves_append]
    by_cases hp : Path.isIdle p = true
    · rw [Path.parentsOf, if_pos hp]
      rcases PathStep.ofPiece_of_isIdle hp with hp | hp <;> simpa [hp, PathStep.moves] using hrest
    · obtain ⟨step, hp', hstay⟩ := PathStep.ofPiece_of_not_isIdle hp
      rw [Path.parentsOf, if_neg hp]
      have hmoves : PathStep.moves ([p].filterMap PathStep.ofPiece) = [step] := by
        simp [PathStep.moves, hp', hstay]
      rw [hmoves, PathStep.dropLast_scanl_move_concat, PathStep.reverse_scanl_move,
        PathStep.foldl_move_moves, ← eq_foldl_of_foldlM (habove.steps_eq hps')]
      exact .cons (habove.dropIdle hps') hrest

end Candidates

theorem forall₂_rootCandidates {path : FilePath} {place : List FileName} (hr : d.Reaches path place) :
    List.Forall₂ d.Reaches (d.rootCandidates path) (d.trail path).reverse := by
  obtain ⟨s, hs⟩ := Path.exists_cons_of_isAbsolute hr.absolute
  have hpath : Path.absolute (Path.pieces s).reverse = path := by rw [Path.absolute_pieces, hs]
  have hps : ∀ p ∈ (Path.pieces s).reverse, Byte.slash ∉ p := fun p hp =>
    Path.slash_notMem_of_mem_pieces (List.mem_reverse.1 hp)
  have hparents : Path.parents path = Path.parentsOf [Byte.slash] (Path.pieces s).reverse := by
    have hlead : Path.lead path = [Byte.slash] := if_pos hr.absolute
    rw [Path.parents, hlead, if_neg (by decide), List.append_nil, hs]
    rfl
  have hmoves : PathStep.moves (PathStep.ofPath path) =
      PathStep.moves ((Path.pieces s).reverse.reverse.filterMap PathStep.ofPiece) := by
    rw [PathStep.ofPath_eq, PathStep.moves_append, hs, PathStep.within_slash_cons, List.reverse_reverse]
    split <;> simp [PathStep.moves, PathStep.within]
  have hall := forall₂_parentsOf hps (hpath ▸ hr)
  rw [rootCandidates, trail, hmoves, hparents]
  split
  · exact hall
  · rw [PathStep.reverse_scanl_move, PathStep.foldl_move_moves,
      ← eq_foldl_of_foldlM (Reaches.steps_eq hps (hpath ▸ hr))]
    exact .cons hr hall

theorem find?_of_forall₂ (h : d.root.linkFree = true) {paths : List FileName} {places : List (List FileName)}
    (hall : List.Forall₂ d.Reaches paths places) :
    (paths.find? fun p => d.exists? (Path.join p projectEntry)).map d.locate =
      (places.find? d.root.hasProject).map .ok := by
  induction hall with
  | nil => rfl
  | cons hr _ ih =>
    rw [List.find?_cons, List.find?_cons, hr.exists_git h]
    split
    · rename_i hp
      exact congrArg some (hr.locate_of_hasProject h hp)
    · exact ih

/-- The search for the root of a project finds the last project on the way of a path. -/
theorem locate_projectRoot? (h : d.root.linkFree = true) {path : FilePath} {place : List FileName}
    (hr : d.Reaches path place) :
    (d.projectRoot? path).map d.locate = (d.lastProject? path).map .ok :=
  find?_of_forall₂ h (forall₂_rootCandidates hr)

/-! ## The full path of an argument -/

theorem workingPath_eq (d : Disk) : d.workingPath = Path.absolute d.workingDir.reverse := by
  rw [workingPath, Path.absolute, List.reverse_reverse]

theorem isAbsolute_workingPath (d : Disk) : Path.isAbsolute d.workingPath = true := by
  simp [workingPath, Path.isAbsolute]

namespace Plain

variable (h : d.Plain)
include h

theorem root_dir : ∃ es, d.root.at? [] = some (.dir es) := by
  obtain ⟨es, hes⟩ := h.working
  cases hnames : d.workingDir with
  | nil => exact ⟨es, hnames ▸ hes⟩
  | cons n ns =>
    rw [hnames] at hes
    obtain ⟨u, hu, -⟩ := Option.bind_eq_some_iff.1 hes
    obtain ⟨es', hes', -⟩ := FileTree.exists_dir_of_child? hu
    exact ⟨es', congrArg some hes'⟩

theorem within_workingPath : PathStep.within d.workingPath = d.workingDir.map .enter := by
  have hslash : ∀ n ∈ d.workingDir.reverse, Byte.slash ∉ n := fun n hn =>
    (h.names n (List.mem_reverse.1 hn)).slash
  rw [workingPath_eq, within_absolute hslash, List.reverse_reverse, ← List.filterMap_eq_map]
  exact List.filterMap_congr fun n hn => (h.names n hn).ofPiece_eq

/-- The working directory is given without two dots. -/
theorem up_mem_of_join {path : FilePath} (hne : path ≠ [])
    (hup : .up ∈ PathStep.ofPath (Path.join d.workingPath path)) : .up ∈ PathStep.ofPath path := by
  by_cases habs : Path.isAbsolute path = true
  · rwa [Path.join_of_isAbsolute _ _ habs] at hup
  · rw [PathStep.ofPath_join (Bool.eq_false_iff.2 habs) hne, h.within_workingPath] at hup
    rcases List.mem_append.1 hup with hup | hup
    · simp at hup
    · exact hup

theorem zero_notMem_workingPath : 0 ∉ d.workingPath := by
  rw [workingPath]
  intro hzero
  rcases List.mem_cons.1 hzero with hzero | hzero
  · exact absurd hzero (by decide)
  rcases Path.mem_of_mem_intercalate hzero with hzero | ⟨n, hn, hzero⟩
  · exact absurd hzero (by decide)
  · exact (h.names n hn).zero hzero

/-- An argument names what its full path names. -/
theorem locate_join_workingPath {path : FilePath} {place : List FileName} (hloc : d.locate path = .ok place)
    (hlen : (Path.join d.workingPath path).length ≤ pathLimit) :
    d.locate (Path.join d.workingPath path) = .ok place := by
  by_cases habs : Path.isAbsolute path = true
  · rwa [Path.join_of_isAbsolute _ _ habs]
  obtain ⟨hne, hzero, hshort⟩ := locate_eq_ok hloc
  have hfull : Path.isAbsolute (Path.join d.workingPath path) = true :=
    Path.isAbsolute_join _ _ (isAbsolute_workingPath d)
  have hfullZero : 0 ∉ Path.join d.workingPath path := by
    intro hmem
    rcases Path.mem_join _ _ hmem with hmem | hmem | hmem
    · exact h.zero_notMem_workingPath hmem
    · exact absurd hmem (by decide)
    · exact hzero hmem
  obtain ⟨es, hes⟩ := h.working
  have hwalk := @foldlM_enter d.root [] d.workingDir _ hes fun n hn => (h.names n hn).short
  rw [locate_eq h.linkFree hne hzero hshort, if_neg habs] at hloc
  rw [locate_of_isAbsolute h.linkFree hfull hfullZero hlen,
    PathStep.ofPath_join (Bool.eq_false_iff.2 habs) hne, h.within_workingPath]
  exact foldlM_advance_append.2 ⟨_, hwalk, hloc⟩

theorem reaches {path : FilePath} {place : List FileName} (habs : Path.isAbsolute path = true)
    (hlen : path.length + 5 ≤ pathLimit) (hloc : d.locate path = .ok place) : d.Reaches path place := by
  obtain ⟨-, hzero, hshort⟩ := locate_eq_ok hloc
  rw [locate_of_isAbsolute h.linkFree habs hzero hshort, PathStep.ofPath_eq] at hloc
  obtain ⟨middle, hmiddle, hrest⟩ := foldlM_advance_append.1 hloc
  have heq : place = middle := by
    rw [eq_foldl_of_foldlM hrest]
    split <;> rfl
  exact ⟨habs, hzero, hlen, heq ▸ hmiddle⟩

/-- The way of a path ends in the directory that the path names or in which the file lies. -/
theorem trail_eq {path : FilePath} {place : List FileName} (habs : Path.isAbsolute path = true)
    (hloc : d.locate path = .ok place) :
    ∃ steps, d.trail path = steps.scanl PathStep.move [] ∧
      d.root.directoryOf place = steps.foldl PathStep.move [] ∧ steps ⊆ PathStep.ofPath path := by
  obtain ⟨-, hzero, hshort⟩ := locate_eq_ok hloc
  have hwalk := hloc
  rw [locate_of_isAbsolute h.linkFree habs hzero hshort] at hwalk
  have hend := eq_foldl_of_foldlM hwalk
  rw [← PathStep.foldl_move_moves] at hend
  unfold trail isFile find FileTree.directoryOf
  rw [hloc]
  cases hplace : d.root.at? place with
  | none => exact ⟨_, by simp [hplace], hend, PathStep.moves_subset _⟩
  | some t =>
    cases t with
    | link _ | dir _ => exact ⟨_, by simp [hplace], hend, PathStep.moves_subset _⟩
    | file content =>
      obtain ⟨before, name, hsteps, rfl⟩ := eq_enter_of_foldlM h.root_dir hwalk hplace
      have hmoves : PathStep.moves (PathStep.ofPath path) = PathStep.moves before ++ [.enter name] := by
        rw [hsteps, PathStep.moves_append]
        rfl
      refine ⟨PathStep.moves before, ?_, ?_, ?_⟩
      · simp [hplace, hmoves, PathStep.dropLast_scanl_move_concat]
      · simp [PathStep.foldl_move_moves]
      · rw [hsteps]
        exact List.Subset.trans (PathStep.moves_subset before) (List.subset_append_left _ _)

end Plain

/-! ## The root of a project -/

/-- The root that is found for an argument is the last project on its way, and there is none if
there is no project on its way. That is the nearest project among the directory that the argument
names (or in which the file lies) and its ancestors, if and only if it is one of them. It always
is for an argument without two dots. -/
theorem project_root_by_ancestry (h : d.Plain) {path : FilePath} (hex : d.exists? path = true)
    (hlen : (Path.join d.workingPath path).length + 5 ≤ pathLimit) :
    ∃ place, d.locate path = .ok place ∧
      let full := Path.join d.workingPath path
      let found := (d.projectRoot? full).map d.locate
      let nearest := d.root.nearestProject? (d.root.directoryOf place)
      found = (d.lastProject? full).map .ok ∧
        (found = nearest.map .ok ↔
          ∀ last, d.lastProject? full = some last → last <+: d.root.directoryOf place) ∧
        (.up ∉ PathStep.ofPath path → found = nearest.map .ok) := by
  obtain ⟨place, hplace⟩ := locate_of_exists hex
  refine ⟨place, hplace, ?_⟩
  intro full found nearest
  have habs : Path.isAbsolute full = true :=
    Path.isAbsolute_join _ _ (isAbsolute_workingPath d)
  have hloc : d.locate full = .ok place :=
    h.locate_join_workingPath hplace (Nat.le_of_add_right_le hlen)
  obtain ⟨steps, htrail, hend, hsteps⟩ := h.trail_eq habs hloc
  have hlast : d.lastProject? full = (steps.scanl PathStep.move []).reverse.find? d.root.hasProject := by
    rw [lastProject?, htrail]
  have hfound : found = (d.lastProject? full).map .ok :=
    locate_projectRoot? h.linkFree (h.reaches habs hlen hloc)
  have hnearest (hbelow : ∀ last, d.lastProject? full = some last → last <+: d.root.directoryOf place) :
      found = nearest.map .ok := by
    rw [hend] at hbelow
    rw [hfound]
    show _ = (((d.root.directoryOf place).inits.reverse.find? d.root.hasProject).map _)
    rw [hend, PathStep.find?_inits_of_find?_way hlast.symm hbelow]
  refine ⟨hfound, ⟨?_, hnearest⟩, ?_⟩
  · intro heq last hl
    rw [hfound, hl] at heq
    obtain ⟨dir, hdir, hsame⟩ := Option.map_eq_some_iff.1 heq.symm
    cases hsame
    have hmem := List.mem_reverse.1 (List.mem_of_find?_eq_some hdir)
    exact (List.mem_inits _ _).1 hmem
  · intro hup
    refine hnearest fun last hl => ?_
    have hmem := List.mem_reverse.1 (List.mem_of_find?_eq_some (hlast.symm.trans hl))
    rw [hend]
    exact PathStep.prefix_of_mem_way (fun h' => hup (h.up_mem_of_join (locate_eq_ok hplace).1 (hsteps h'))) hmem

/-! ### A way through a project -/

/-- A project `a` beside a directory `b` that is in no project, seen from `a`. -/
def besideProject : Disk where
  root := .dir [(bytes "a", .dir [(projectEntry, .dir [])]), (bytes "b", .dir [])]
  workingDir := [bytes "a"]

theorem plain_besideProject : besideProject.Plain where
  linkFree := by decide
  working := ⟨_, rfl⟩
  names n hn := by
    obtain rfl := List.mem_singleton.1 hn
    decide +kernel

theorem locate_besideProject {path : FilePath} {place : List FileName} (hne : path ≠ [])
    (hzero : 0 ∉ path) (hshort : path.length ≤ pathLimit)
    (h : (PathStep.ofPath path).foldlM (advance besideProject.root)
      (if Path.isAbsolute path then [] else [bytes "a"]) = .ok place) : besideProject.locate path = .ok place := by
  rw [locate_eq plain_besideProject.linkFree hne hzero hshort]
  exact h

/-- The way to `../a` leaves the project and comes back to it. -/
theorem project_root_of_way_back :
    let path := bytes "../a"
    besideProject.exists? path = true ∧ besideProject.locate path = .ok [bytes "a"] ∧
      besideProject.root.nearestProject? (besideProject.root.directoryOf [bytes "a"]) = some [bytes "a"] ∧
      (besideProject.projectRoot? (Path.join besideProject.workingPath path)).map besideProject.locate =
        some (.ok [bytes "a"]) := by
  intro path
  have hloc : besideProject.locate path = .ok [bytes "a"] :=
    locate_besideProject (by decide +kernel) (by decide +kernel) (by decide +kernel) rfl
  have hfull : besideProject.locate (Path.join besideProject.workingPath path) = .ok [bytes "a"] :=
    locate_besideProject (by decide +kernel) (by decide +kernel) (by decide +kernel) rfl
  have hlast : besideProject.lastProject? (Path.join besideProject.workingPath path) = some [bytes "a"] := by
    rw [lastProject?, trail, isFile, find, hfull]
    rfl
  have hex : besideProject.exists? path = true := by
    rw [exists?, find, hloc]
    rfl
  obtain ⟨-, -, hfound, -⟩ := project_root_by_ancestry plain_besideProject hex (by decide +kernel)
  rw [hlast] at hfound
  exact ⟨hex, hloc, rfl, hfound⟩

/-- The way to `../b` leaves the project for good, and the project is found all the same. -/
theorem project_root_of_way_out :
    let path := bytes "../b"
    besideProject.Plain ∧ besideProject.exists? path = true ∧ besideProject.locate path = .ok [bytes "b"] ∧
      besideProject.root.nearestProject? (besideProject.root.directoryOf [bytes "b"]) = none ∧
      (besideProject.projectRoot? (Path.join besideProject.workingPath path)).map besideProject.locate =
        some (.ok [bytes "a"]) := by
  intro path
  have hloc : besideProject.locate path = .ok [bytes "b"] :=
    locate_besideProject (by decide +kernel) (by decide +kernel) (by decide +kernel) rfl
  have hfull : besideProject.locate (Path.join besideProject.workingPath path) = .ok [bytes "b"] :=
    locate_besideProject (by decide +kernel) (by decide +kernel) (by decide +kernel) rfl
  have hlast : besideProject.lastProject? (Path.join besideProject.workingPath path) = some [bytes "a"] := by
    rw [lastProject?, trail, isFile, find, hfull]
    rfl
  have hex : besideProject.exists? path = true := by
    rw [exists?, find, hloc]
    rfl
  have hfound := locate_projectRoot? plain_besideProject.linkFree
    (plain_besideProject.reaches (by decide +kernel) (by decide +kernel) hfull)
  rw [hlast] at hfound
  exact ⟨plain_besideProject, hex, hloc, rfl, hfound⟩

end Disk

end BodyLength
