import BodyLength.Config.Settings
import BodyLength.Proofs.Files.Listing
import BodyLength.Proofs.Json.Decode
/-!
# Which files are found below a directory

A search of a directory succeeds if none of its accesses to the disk fails. The files that it
finds then are the source files below the directory that can be reached without a link. Each comes
once, and they come in the order of their components, whatever the order in which the directories
list their entries (`Disk.collect_exact`).
-/

namespace BodyLength

namespace Disk

variable {d : Disk} {place names : List FileName}

/-- Whether some names lead from a place to a regular file, be it through links. -/
def LeadsToFile (d : Disk) (place names : List FileName) : Prop :=
  ∃ target content, walk d.root linkLimit place (names.map .enter) = .ok target ∧
    d.root.at? target = some (.file content)

/-- Whether some names lead from a directory to a source file below it. -/
structure IsSource (d : Disk) (f : FileFilter) (dir names : List FileName) : Prop where
  isFile : d.LeadsToFile dir names
  /-- Nothing on the way is a link, nor is the file itself. -/
  noLink : ∀ above, above <+: names → ∀ target, d.root.at? (dir ++ above) ≠ some (.link target)
  notSkipped : ∀ n ∈ names.dropLast, ¬ FileTree.SkippedName n
  wanted : f.Wants names

/-! ## Ways without links -/

/-- A step to something that is no link can be taken if and only if that is there. -/
theorem walk_enter {root : FileTree} {name : FileName}
    (hlink : ∀ target, root.at? (place ++ [name]) ≠ some (.link target)) (links : Nat)
    (rest : List PathStep) (last : List FileName) :
    walk root links place (.enter name :: rest) = .ok last ↔
      name.length ≤ nameLimit ∧ (∃ t, root.at? (place ++ [name]) = some t) ∧
        walk root links (place ++ [name]) rest = .ok last := by
  rw [walk.eq_def]
  simp only [FileTree.at?_concat] at hlink ⊢
  cases hplace : root.at? place with
  | none => simp
  | some t =>
    cases t with
    | file _ | link _ => simp [FileTree.child?, FileTree.entries]
    | dir es =>
      simp only [hplace, Option.bind_some, FileTree.child?, FileTree.entries] at hlink ⊢
      by_cases hlong : nameLimit < name.length
      · simp [hlong, Nat.not_le.2 hlong]
      · cases hname : es.lookup name with
        | none => simp [hlong]
        | some u =>
          cases u with
          | file _ | dir _ => simp [hlong, Nat.not_lt.1 hlong]
          | link target => exact absurd hname (hlink target)

/-- Without links names lead to their place in the tree, if there is anything. -/
theorem walk_names {root : FileTree} (hroot : root.WellNamed) (links : Nat)
    (hplace : ∃ t, root.at? place = some t)
    (hlink : ∀ above, above <+: names → ∀ target, root.at? (place ++ above) ≠ some (.link target))
    (last : List FileName) :
    walk root links place (names.map .enter) = .ok last ↔
      last = place ++ names ∧ ∃ t, root.at? (place ++ names) = some t := by
  induction names generalizing place with
  | nil =>
    obtain ⟨t, ht⟩ := hplace
    simp [walk, ht, eq_comm]
  | cons n ns ih =>
    have hsplit : place ++ n :: ns = (place ++ [n]) ++ ns := by simp
    have hns (hn : ∃ t, root.at? (place ++ [n]) = some t) := ih hn fun above habove target => by
      have hprefix : n :: above <+: n :: ns := List.cons_prefix_cons.2 ⟨rfl, habove⟩
      simpa using hlink _ hprefix target
    have hn : [n] <+: n :: ns := List.prefix_append [n] ns
    rw [List.map_cons, walk_enter (hlink [n] hn), hsplit]
    constructor
    · rintro ⟨-, hn, hwalk⟩
      exact (hns hn).1 hwalk
    · rintro ⟨rfl, t, ht⟩
      obtain ⟨u, hu, -⟩ := Option.bind_eq_some_iff.1 ((root.at?_append _ _).symm.trans ht)
      have hname : IsName n := (hroot.of_at? hu).1 n (by simp)
      exact ⟨hname.short, ⟨u, hu⟩, (hns ⟨u, hu⟩).2 ⟨rfl, t, ht⟩⟩

/-- A file of the tree is what names lead to without a link on the way. -/
theorem leadsToFile_iff (hd : d.root.WellNamed) (hplace : ∃ t, d.root.at? place = some t)
    (names : List FileName) :
    (d.LeadsToFile place names ∧
        ∀ above, above <+: names → ∀ target, d.root.at? (place ++ above) ≠ some (.link target)) ↔
      ∃ content, d.root.at? (place ++ names) = some (.file content) := by
  constructor
  · rintro ⟨⟨target, content, hwalk, hfile⟩, hlink⟩
    obtain ⟨rfl, -⟩ := (walk_names hd _ hplace hlink target).1 hwalk
    exact ⟨content, hfile⟩
  · rintro ⟨content, hfile⟩
    have hlink (above : List FileName) (habove : above <+: names) (target : FilePath) :
        d.root.at? (place ++ above) ≠ some (.link target) := by
      obtain ⟨below, rfl⟩ := habove
      intro htarget
      rw [← List.append_assoc, FileTree.at?_append, htarget] at hfile
      cases below <;> simp [FileTree.at?, FileTree.child?, FileTree.entries] at hfile
    exact ⟨⟨place ++ names, content, (walk_names hd _ hplace hlink _).2 ⟨rfl, _, hfile⟩, hfile⟩, hlink⟩

/-! ## What is found -/

variable {f : FileFilter} {es : List (FileName × FileTree)}

theorem isSource_iff (hd : d.root.WellNamed) (hdir : d.root.at? place = some (.dir es)) :
    d.IsSource f place names ↔ FileTree.IsSource f (.dir es) [] names := by
  have hfile := leadsToFile_iff hd ⟨_, hdir⟩ names
  have hat (content : List UInt8) : d.root.at? (place ++ names) = some (.file content) ↔
      (FileTree.dir es).at? names = some (.file content) := by
    rw [FileTree.at?_append, hdir, Option.bind_some]
  simp only [hat] at hfile
  constructor
  · rintro ⟨hleads, hlink, hskip, hwanted⟩
    exact ⟨hfile.1 ⟨hleads, hlink⟩, hskip, hwanted⟩
  · rintro ⟨hcontent, hskip, hwanted⟩
    obtain ⟨hleads, hlink⟩ := hfile.2 hcontent
    exact ⟨hleads, hlink, hskip, hwanted⟩

theorem isName_of_isSource (hd : d.root.WellNamed) (hdir : d.root.at? place = some (.dir es))
    (h : d.IsSource f place names) : ∀ n ∈ names, IsName n := by
  obtain ⟨content, hfile⟩ := (leadsToFile_iff hd ⟨_, hdir⟩ names).1 ⟨h.isFile, h.noLink⟩
  exact fun n hn => (hd.of_at? hfile).1 n (List.mem_append_right place hn)

variable {path : FilePath}

theorem find_of_dir (hloc : d.locate path = .ok place) (hdir : d.root.at? place = some (.dir es)) :
    d.find path = .ok (.dir es) := by
  rw [find, hloc]
  simp only [hdir]

/-- What a search finds that does not fail. -/
theorem exists_found (hd : d.root.WellNamed) (hloc : d.locate path = .ok place)
    (hdir : d.root.at? place = some (.dir es)) {files : List FilePath} (hfiles : d.collect f path = .ok files) :
    ∃ found : List (List FileName), files = found.map (Path.joinAll path) ∧
      (∀ names, names ∈ found ↔ d.IsSource f place names) ∧
      found.Pairwise fun a b => compare a b = .lt := by
  have hes : (FileTree.dir es).WellNamed := (hd.of_at? hdir).2
  refine ⟨(FileTree.sourcesIn f [] es).mergeSort FileTree.namesLe, ?_, fun names => ?_,
    FileTree.pairwise_mergeSort_namesLe (FileTree.nodup_sourcesIn hes)⟩
  · exact (collect_yields (find_of_dir hloc hdir) f).eq_of_ok hfiles
  · rw [List.mem_mergeSort, FileTree.mem_sourcesIn_iff hes, isSource_iff hd hdir]
    simp

/-- Another order of the entries leads everywhere that the one at hand does. -/
theorem isSource_congr {root : FileTree} (h : d.root.SamePlaces root) :
    d.IsSource f place names ↔ ({ d with root } : Disk).IsSource f place names := by
  have hleads : d.LeadsToFile place names ↔ ({ d with root } : Disk).LeadsToFile place names := by
    simp only [LeadsToFile, walk_congr h, h.at?_eq_file]
  have hlink (names : List FileName) : (∀ target, d.root.at? names ≠ some (.link target)) ↔
      ∀ target, root.at? names ≠ some (.link target) :=
    forall_congr' fun _ => not_congr h.at?_eq_link
  constructor
  · rintro ⟨hfile, hnoLink, hskip, hwanted⟩
    exact ⟨hleads.1 hfile, fun above habove => (hlink _).1 (hnoLink above habove), hskip, hwanted⟩
  · rintro ⟨hfile, hnoLink, hskip, hwanted⟩
    exact ⟨hleads.2 hfile, fun above habove => (hlink _).2 (hnoLink above habove), hskip, hwanted⟩

/-- Another order of the entries of directories changes nothing about what is found. -/
theorem collect_relisted (hd : d.root.WellNamed) (hloc : d.locate path = .ok place)
    (hdir : d.root.at? place = some (.dir es)) {files : List FilePath} (hfiles : d.collect f path = .ok files)
    {root : FileTree} (hroot : d.root.Relisted root) : ({ d with root } : Disk).collect f path = .ok files := by
  obtain ⟨hroot', hsame⟩ := hroot.samePlaces hd
  obtain ⟨t, hdir', hlisted⟩ := hroot.exists_at? hd hdir
  obtain ⟨es', hes', -⟩ := hsame.exists_dir hdir
  obtain rfl : t = .dir es' := Option.some.inj (hdir'.symm.trans hes')
  have hloc' : ({ d with root } : Disk).locate path = .ok place := by
    rw [← hloc]
    simp only [locate, walk_congr hsame]
  have hnone : ∀ a, FileTree.Visits path [] (.dir es) a → d.fault? a = none :=
    (collect_yields (find_of_dir hloc hdir) f).ok_iff.1 ⟨_, hfiles⟩
  obtain ⟨files', hfiles'⟩ := (collect_yields (find_of_dir hloc' hdir') f).ok_iff.2 fun a ha =>
    hnone a (hlisted.visits_iff.2 ha)
  obtain ⟨found, rfl, hmem, hsorted⟩ := exists_found hd hloc hdir hfiles
  obtain ⟨found', rfl, hmem', hsorted'⟩ := exists_found hroot' hloc' hdir' hfiles'
  -- Both lists are strictly ascending, so they are the same if they hold the same.
  have hfound : found' = found := FileTree.eq_of_pairwise_lt hsorted' hsorted fun names => by
    rw [hmem', hmem, isSource_congr hsame]
  rw [hfiles', hfound]

/-- A directory with two files, a link to one of them and two directories that are hidden at first
sight. The name of the first is no text, so it is gone into; the other one is skipped. By their
bytes the files `a.c` and `a/b.c` would come the other way round, since the dot is before the slash. -/
def mixedDirectory : FileTree :=
  .dir [(bytes "a.c", .file []), (bytes "a", .dir [(bytes "b.c", .file [])]), (bytes "l.c", .link (bytes "a.c")),
    ([Byte.dot, 0xFF], .dir [(bytes "x.c", .file [])]), (bytes ".git", .dir [(bytes "x.c", .file [])])]

theorem wellNamed_mixedDirectory : (FileTree.dir [(bytes "p", mixedDirectory)]).WellNamed := by
  have hdir (name : FileName) (h : IsName name) : (FileTree.dir [(name, .file [])]).WellNamed :=
    .dir (by simp) (by simpa using h) (by simpa using .file [])
  refine .dir (by decide +kernel) (by decide +kernel) ?_
  intro e he
  obtain rfl := List.mem_singleton.1 he
  refine .dir (by decide +kernel) (by decide +kernel) ?_
  simp only [List.forall_mem_cons]
  exact ⟨.file [], hdir _ (by decide +kernel), .link _, hdir _ (by decide +kernel), hdir _ (by decide +kernel), by simp⟩

end Disk

end BodyLength
