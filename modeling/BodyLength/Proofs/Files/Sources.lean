import BodyLength.Files.Collect
import BodyLength.Proofs.Files.Components
import BodyLength.Proofs.Files.Walk
import BodyLength.Proofs.Text.Utf8
import Mathlib.Data.List.Nodup
/-!
# The source files in a tree

Going through a tree of distinct names comes upon each source file once
(`FileTree.mem_sourcesIn_iff`, `FileTree.nodup_sourcesIn`). Sorted by their names, the files
stand in strictly ascending order, so the order in which the tree lists its entries is lost.
-/

namespace BodyLength

namespace FileFilter

/-- What the names that lead to a file must be like for it to be a source file. -/
structure Wants (f : FileFilter) (names : List FileName) : Prop where
  extension : ∃ name ext, names.getLast? = some name ∧ Path.extensionOf? name = some (bytes ext) ∧
    ext.toList.map lowerAscii ∈ f.extensions
  notExcluded : f.excludes ([Byte.slash].intercalate names) = false
  included : ∀ test, f.includes = some test → test ([Byte.slash].intercalate names) = true

theorem hasExtension_iff (f : FileFilter) (name : FileName) :
    f.hasExtension name = true ↔
      ∃ ext, Path.extensionOf? name = some (bytes ext) ∧ ext.toList.map lowerAscii ∈ f.extensions := by
  have htext (ext : String) : (Path.extensionOf? name).bind text? = some ext ↔
      Path.extensionOf? name = some (bytes ext) := by
    simp only [Option.bind_eq_some_iff, text?_eq_some_iff, exists_eq_right]
  simp only [← htext, hasExtension]
  cases (Path.extensionOf? name).bind text? <;> simp

theorem wants_concat_iff (f : FileFilter) (above : List FileName) (name : FileName) :
    f.Wants (above ++ [name]) ↔
      (f.hasExtension name && f.admits ([Byte.slash].intercalate (above ++ [name]))) = true := by
  have hadmits (path : FilePath) : f.admits path = true ↔ f.excludes path = false ∧
      ∀ test, f.includes = some test → test path = true := by
    simp [admits, Option.all_eq_true]
  rw [Bool.and_eq_true, hasExtension_iff, hadmits]
  constructor
  · rintro ⟨⟨name', ext, hname, hext⟩, hexcluded, hincluded⟩
    obtain rfl : name = name' := by simpa using hname
    exact ⟨⟨ext, hext⟩, hexcluded, hincluded⟩
  · rintro ⟨⟨ext, hext⟩, hexcluded, hincluded⟩
    exact ⟨⟨name, ext, by simp, hext⟩, hexcluded, hincluded⟩

end FileFilter

namespace FileTree

/-- The names of directories that are skipped: texts with a dot in front, and six others. A name
that is no text is none of them. -/
inductive SkippedName : FileName → Prop where
  | hidden (rest : String) : SkippedName (bytes ("." ++ rest))
  | other {s : String} : s ∈ ["node_modules", "target", "dist", "build", "out", "vendor"] → SkippedName (bytes s)

theorem isSkipped_iff (s : String) : isSkipped s = true ↔
    (∃ rest, s = "." ++ rest) ∨ s ∈ ["node_modules", "target", "dist", "build", "out", "vendor"] := by
  have hdot : s.startsWith '.' = true ↔ ∃ rest, s = "." ++ rest := by
    rw [String.startsWith_char_eq_head?, beq_iff_eq, List.head?_eq_some_iff]
    constructor
    · rintro ⟨cs, hs⟩
      exact ⟨.ofList cs, String.toList_inj.1 (by simp [hs])⟩
    · rintro ⟨rest, rfl⟩
      exact ⟨rest.toList, by simp⟩
  rw [isSkipped, Bool.or_eq_true, hdot, List.contains_iff_mem]

theorem skips_iff (name : FileName) : skips name = true ↔ SkippedName name := by
  rw [skips, Option.any_eq_true]
  simp only [text?_eq_some_iff, isSkipped_iff]
  constructor
  · rintro ⟨s, rfl, ⟨rest, rfl⟩ | hs⟩
    · exact .hidden rest
    · exact .other hs
  · rintro (rest | hs)
    · exact ⟨_, rfl, .inl ⟨rest, rfl⟩⟩
    · exact ⟨_, rfl, .inr hs⟩

/-- Trees whose entries have proper names, no two in a directory the same one. -/
inductive WellNamed : FileTree → Prop where
  | file (content : List UInt8) : WellNamed (file content)
  | link (target : FilePath) : WellNamed (link target)
  | dir {es : List (FileName × FileTree)} (distinct : (es.map Prod.fst).Nodup)
      (names : ∀ e ∈ es, IsName e.1) (below : ∀ e ∈ es, WellNamed e.2) : WellNamed (dir es)

theorem lookup_eq_some_iff {es : List (FileName × FileTree)} (h : (es.map Prod.fst).Nodup) {name : FileName}
    {t : FileTree} : es.lookup name = some t ↔ (name, t) ∈ es := by
  induction es with
  | nil => simp
  | cons e es ih =>
    rw [List.map_cons, List.nodup_cons] at h
    rw [List.lookup_cons, List.mem_cons]
    split
    · rename_i heq
      obtain rfl : name = e.1 := by simpa using heq
      have hnone : (e.1, t) ∉ es := fun hmem => h.1 (List.mem_map.2 ⟨_, hmem, rfl⟩)
      simp [hnone, Prod.ext_iff, eq_comm]
    · rename_i hne
      have hne' : name ≠ e.1 := by simpa using hne
      simp [ih h.2, Prod.ext_iff, hne']

theorem WellNamed.of_lookup {es : List (FileName × FileTree)} (h : WellNamed (FileTree.dir es))
    {name : FileName} {t : FileTree} (ht : es.lookup name = some t) : IsName name ∧ t.WellNamed := by
  cases h with
  | dir distinct names below =>
    have hmem := (lookup_eq_some_iff distinct).1 ht
    exact ⟨names _ hmem, below _ hmem⟩

theorem WellNamed.of_at? {t u : FileTree} (h : t.WellNamed) {place : List FileName}
    (hu : t.at? place = some u) : (∀ n ∈ place, IsName n) ∧ u.WellNamed := by
  induction place generalizing t with
  | nil => simp_all [at?]
  | cons n ns ih =>
    obtain ⟨v, hv, hvu⟩ := Option.bind_eq_some_iff.1 hu
    obtain ⟨es, rfl, hes⟩ := exists_dir_of_child? hv
    obtain ⟨hn, hv⟩ := h.of_lookup hes
    obtain ⟨hns, hu⟩ := ih hv hvu
    exact ⟨List.forall_mem_cons.2 ⟨hn, hns⟩, hu⟩

/-! ## What is found -/

-- what the search of a disk comes to if no access fails

mutual

/-- The source files in a tree with the given name, below the names `above`, each as the names
that lead to it. -/
def sources (f : FileFilter) (above : List FileName) (name : FileName) : FileTree → List (List FileName)
  | file _ =>
    let names := above ++ [name]
    if f.hasExtension name && f.admits ([Byte.slash].intercalate names) then [names] else []
  | link _ => []
  | dir es => if skips name then [] else sourcesIn f (above ++ [name]) es

/-- The source files among the entries of a directory. -/
def sourcesIn (f : FileFilter) (above : List FileName) : List (FileName × FileTree) → List (List FileName)
  | [] => []
  | (name, t) :: es => sources f above name t ++ sourcesIn f above es

end

/-- Whether some names lead from a tree to a source file, if the names `above` lead to the tree. -/
structure IsSource (f : FileFilter) (t : FileTree) (above below : List FileName) : Prop where
  isFile : ∃ content, t.at? below = some (.file content)
  notSkipped : ∀ n ∈ below.dropLast, ¬ SkippedName n
  wanted : f.Wants (above ++ below)

variable {f : FileFilter} {t : FileTree} {es : List (FileName × FileTree)} {above names : List FileName}

theorem sourcesIn_eq (f : FileFilter) (above : List FileName) (es : List (FileName × FileTree)) :
    sourcesIn f above es = es.flatMap fun e => sources f above e.1 e.2 := by
  induction es with
  | nil => rfl
  | cons e es ih => rw [sourcesIn, ih, List.flatMap_cons]

theorem isSource_nil_iff : IsSource f t above [] ↔ (∃ content, t = .file content) ∧ f.Wants above := by
  constructor
  · rintro ⟨hfile, -, hwants⟩
    exact ⟨by simpa [at?] using hfile, by simpa using hwants⟩
  · rintro ⟨hfile, hwants⟩
    exact ⟨by simpa [at?] using hfile, by simp, by simpa using hwants⟩

/-- A source file below a directory is below one of its entries. -/
theorem isSource_dir_cons_iff (h : (es.map Prod.fst).Nodup) (name : FileName) (below : List FileName) :
    IsSource f (.dir es) above (name :: below) ↔
      (∃ t, (name, t) ∈ es ∧ IsSource f t (above ++ [name]) below) ∧
        (below ≠ [] → ¬ SkippedName name) := by
  have happend : above ++ name :: below = (above ++ [name]) ++ below := by simp
  have hat (content : List UInt8) : (dir es).at? (name :: below) = some (.file content) ↔
      ∃ t, (name, t) ∈ es ∧ t.at? below = some (.file content) := by
    simp [at?, child?, entries, Option.bind_eq_some_iff, lookup_eq_some_iff h]
  constructor
  · rintro ⟨⟨content, hfile⟩, hskip, hwants⟩
    obtain ⟨t, ht, hbelow⟩ := (hat content).1 hfile
    refine ⟨⟨t, ht, ⟨content, hbelow⟩, ?_, happend ▸ hwants⟩, ?_⟩
    · intro n hn
      cases below with
      | nil => simp at hn
      | cons m ms => exact hskip n (List.mem_cons_of_mem name hn)
    · intro hne
      obtain ⟨m, ms, rfl⟩ := List.exists_cons_of_ne_nil hne
      exact hskip name List.mem_cons_self
  · rintro ⟨⟨t, ht, ⟨content, hbelow⟩, hskip, hwants⟩, hname⟩
    refine ⟨⟨content, (hat content).2 ⟨t, ht, hbelow⟩⟩, ?_, happend ▸ hwants⟩
    cases below with
    | nil => simp
    | cons m ms => exact List.forall_mem_cons.2 ⟨hname (List.cons_ne_nil m ms), hskip⟩

theorem not_isSource_link (target : FilePath) (below : List FileName) :
    ¬ IsSource f (.link target) above below := by
  rintro ⟨⟨content, hfile⟩, -, -⟩
  cases below <;> simp [at?, child?, entries] at hfile

theorem isSource_file_iff (content : List UInt8) (below : List FileName) :
    IsSource f (.file content) above below ↔ below = [] ∧ f.Wants above := by
  cases below with
  | nil => simp [isSource_nil_iff]
  | cons n ns =>
    simp only [reduceCtorEq, false_and, iff_false]
    rintro ⟨⟨content, hfile⟩, -, -⟩
    simp [at?, child?, entries] at hfile

/-- What `mem_sources_iff` says of a tree. -/
def Found (f : FileFilter) (t : FileTree) : Prop :=
  ∀ (above : List FileName) (name : FileName) (names : List FileName), names ∈ sources f above name t ↔
    ∃ below, names = above ++ name :: below ∧ IsSource f t (above ++ [name]) below ∧
      (below ≠ [] → ¬ SkippedName name)

theorem mem_sourcesIn_of_found (h : (es.map Prod.fst).Nodup) (hfound : ∀ e ∈ es, Found f e.2) :
    names ∈ sourcesIn f above es ↔ ∃ below, names = above ++ below ∧ IsSource f (.dir es) above below := by
  rw [sourcesIn_eq, List.mem_flatMap]
  constructor
  · rintro ⟨e, he, hnames⟩
    obtain ⟨below, rfl, hsource, hskip⟩ := (hfound e he above e.1 names).1 hnames
    exact ⟨e.1 :: below, rfl, (isSource_dir_cons_iff h _ _).2 ⟨⟨e.2, he, hsource⟩, hskip⟩⟩
  · rintro ⟨below, rfl, hsource⟩
    cases below with
    | nil => simp [isSource_nil_iff] at hsource
    | cons name below =>
      obtain ⟨⟨t, ht, hbelow⟩, hskip⟩ := (isSource_dir_cons_iff h _ _).1 hsource
      exact ⟨(name, t), ht, (hfound _ ht above name _).2 ⟨below, rfl, hbelow, hskip⟩⟩

theorem WellNamed.found (h : t.WellNamed) (f : FileFilter) : Found f t := by
  induction h with
  | file content =>
    intro above name names
    simp only [sources, isSource_file_iff, f.wants_concat_iff]
    split <;> simp_all
  | link target =>
    intro above name names
    simp [sources, not_isSource_link]
  | @dir es distinct _ _ ih =>
    intro above name names
    have hne {below : List FileName} (h : IsSource f (.dir es) (above ++ [name]) below) : below ≠ [] := by
      rintro rfl
      simp [isSource_nil_iff] at h
    rw [sources]
    split
    · rename_i hskip
      constructor
      · exact fun h => absurd h List.not_mem_nil
      · rintro ⟨below, -, hsource, hname⟩
        exact absurd ((skips_iff name).1 hskip) (hname (hne hsource))
    · rename_i hskip
      rw [mem_sourcesIn_of_found distinct ih]
      constructor
      · rintro ⟨below, rfl, hsource⟩
        exact ⟨below, by simp, hsource, fun _ => mt (skips_iff name).2 hskip⟩
      · rintro ⟨below, rfl, hsource, -⟩
        exact ⟨below, by simp, hsource⟩

/-- Below a directory exactly the source files are found. -/
theorem mem_sourcesIn_iff (h : (FileTree.dir es).WellNamed) :
    names ∈ sourcesIn f above es ↔ ∃ below, names = above ++ below ∧ IsSource f (.dir es) above below := by
  cases h with
  | dir distinct _ below => exact mem_sourcesIn_of_found distinct fun e he => (below e he).found f

/-! ## Each once -/

theorem nodup_sourcesIn_of {above : List FileName} (hes : (FileTree.dir es).WellNamed)
    (h : ∀ e ∈ es, (sources f above e.1 e.2).Nodup) : (sourcesIn f above es).Nodup := by
  cases hes with
  | dir distinct _ below =>
    rw [sourcesIn_eq, List.nodup_flatMap]
    refine ⟨h, (List.pairwise_map.1 distinct).imp_of_mem ?_⟩
    intro e e' he he' hne names hnames hnames'
    obtain ⟨ns, rfl, -⟩ := ((below e he).found f above e.1 _).1 hnames
    obtain ⟨ns', heq, -⟩ := ((below e' he').found f above e'.1 _).1 hnames'
    exact hne (List.head_eq_of_cons_eq (List.append_cancel_left heq))

theorem nodup_sources (h : t.WellNamed) (name : FileName) : (sources f above name t).Nodup := by
  induction h generalizing above name with
  | file content =>
    rw [sources]
    split <;> simp
  | link target => exact List.nodup_nil
  | dir distinct names below ih =>
    rw [sources]
    split
    · exact List.nodup_nil
    · exact nodup_sourcesIn_of (.dir distinct names below) fun e he => ih e he e.1

theorem nodup_sourcesIn (h : (FileTree.dir es).WellNamed) : (sourcesIn f above es).Nodup := by
  refine nodup_sourcesIn_of h fun e he => ?_
  cases h with
  | dir _ _ below => exact nodup_sources (below e he) e.1

/-! ## In order -/

theorem namesLe_trans (a b c : List FileName) (hab : namesLe a b) (hbc : namesLe b c) : namesLe a c :=
  Std.TransOrd.isLE_trans hab hbc

theorem namesLe_total (a b : List FileName) : (namesLe a b || namesLe b a) = true := by
  rw [namesLe, namesLe, Std.OrientedOrd.eq_swap (a := b)]
  cases compare a b <;> rfl

/-- Sorting puts lists of names in strictly ascending order if each is there once. -/
theorem pairwise_mergeSort_namesLe {l : List (List FileName)} (h : l.Nodup) :
    (l.mergeSort namesLe).Pairwise fun a b => compare a b = .lt := by
  have hnodup : (l.mergeSort namesLe).Nodup := (List.mergeSort_perm l namesLe).nodup_iff.2 h
  have hsorted := List.pairwise_mergeSort namesLe_trans namesLe_total l
  refine (hsorted.and hnodup).imp fun {a b} hab => ?_
  obtain ⟨hle, hne⟩ := hab
  cases hcompare : compare a b with
  | lt => rfl
  | eq => exact absurd (Std.LawfulEqOrd.eq_of_compare hcompare) hne
  | gt => simp [namesLe, hcompare] at hle

theorem nodup_of_pairwise_lt {l : List (List FileName)} (h : l.Pairwise fun a b => compare a b = .lt) :
    l.Nodup :=
  h.imp fun {a b} hab heq => by simp [heq, Std.ReflCmp.compare_self] at hab

/-- Two lists in strictly ascending order that hold the same are the same. -/
theorem eq_of_pairwise_lt {l l' : List (List FileName)} (h : l.Pairwise fun a b => compare a b = .lt)
    (h' : l'.Pairwise fun a b => compare a b = .lt) (hmem : ∀ a, a ∈ l ↔ a ∈ l') : l = l' := by
  have hperm := (List.perm_ext_iff_of_nodup (nodup_of_pairwise_lt h) (nodup_of_pairwise_lt h')).2 hmem
  refine hperm.eq_of_pairwise ?_ h h'
  intro a b _ _ hab hba
  rw [Std.OrientedOrd.eq_swap, hba] at hab
  cases hab

end FileTree

end BodyLength
