import BodyLength.Proofs.Files.Path
/-!
# Paths by their components

Paths are compared component by component and not byte by byte: `a/b.c` comes before
`a.c`, since `a` is less than `a.c`. Going into a directory adds a component at the end
(`Path.components_joinAll`), so paths below one directory compare as the names that lead to
them (`Path.compare_joinAll`).
-/

namespace BodyLength

/-- A component of a path; the slash of an absolute path and a dot in front count. -/
inductive PathComponent where
  | root
  | dot
  | up
  | name (n : FileName)
deriving DecidableEq, Repr, Ord

namespace PathComponent

def ofPiece (piece : List UInt8) : Option PathComponent :=
  if Path.isIdle piece then none
  else if piece = [Byte.dot, Byte.dot] then some .up
  else some (.name piece)

theorem compare_name (a b : FileName) : compare (name a) (name b) = compare a b :=
  (Ordering.then_eq : (compare a b).then .eq = compare a b)

theorem compare_self (c : PathComponent) : compare c c = .eq := by
  cases c with
  | root | dot | up => rfl
  | name n =>
    rw [compare_name]
    exact Std.ReflCmp.compare_self

theorem compare_append_left (cs as bs : List PathComponent) :
    compare (cs ++ as) (cs ++ bs) = compare as bs := by
  induction cs with
  | nil => rfl
  | cons c cs ih =>
    rw [List.cons_append, List.cons_append, List.compare_cons_cons, compare_self, Ordering.eq_then, ih]

theorem compare_map_name (as bs : List FileName) :
    compare (as.map name) (bs.map name) = compare as bs := by
  induction as generalizing bs with
  | nil => cases bs <;> rfl
  | cons a as ih =>
    cases bs with
    | nil => rfl
    | cons b bs =>
      rw [List.map_cons, List.map_cons, List.compare_cons_cons, List.compare_cons_cons, compare_name, ih]

end PathComponent

theorem IsName.component_eq {name : FileName} (h : IsName name) :
    PathComponent.ofPiece name = some (.name name) := by
  have hidle : ¬ Path.isIdle name = true := by
    simp only [Path.isIdle, Bool.or_eq_true, List.isEmpty_iff, beq_iff_eq, not_or]
    exact ⟨h.ne_nil, h.ne_dot⟩
  rw [PathComponent.ofPiece, if_neg hidle, if_neg h.ne_dots]

namespace Path

/-- What goes in front of the components for the first of the pieces between slashes. -/
def front : List (List UInt8) → List PathComponent
  | [] :: _ :: _ => [.root]
  | p :: _ => if p = [Byte.dot] then [.dot] else []
  | [] => []

def components (path : FilePath) : List PathComponent :=
  front (pieces path) ++ (pieces path).filterMap PathComponent.ofPiece

example : components (bytes "./a//b/./../c") =
    [.dot, .name (bytes "a"), .name (bytes "b"), .up, .name (bytes "c")] := by decide +kernel

/-! ## Going into a directory -/

/-- One more piece behind a slash does not change the front. -/
theorem front_concat {ps : List (List UInt8)} (h : ps ≠ []) (hne : ps ≠ [[]]) (p : List UInt8) :
    front (ps ++ [p]) = front ps := by
  obtain ⟨q, qs, rfl⟩ := List.exists_cons_of_ne_nil h
  cases q with
  | nil =>
    obtain ⟨r, rs, rfl⟩ := List.exists_cons_of_ne_nil (l := qs) (by simpa using hne)
    rfl
  | cons b q => rfl

/-- The front does not depend on the last piece if another one comes before it. -/
theorem front_concat_congr {ps : List (List UInt8)} (h : ps ≠ []) (p q : List UInt8) :
    front (ps ++ [p]) = front (ps ++ [q]) := by
  by_cases hne : ps = [[]]
  · rw [hne]
    rfl
  · rw [front_concat h hne, front_concat h hne]

theorem pieces_append_slash (s t : FilePath) : pieces (s ++ Byte.slash :: t) = pieces s ++ pieces t := by
  simp [pieces_eq_splitOn, List.splitOn_append_cons_self]

theorem pieces_of_slash_notMem {s : FilePath} (h : Byte.slash ∉ s) : pieces s = [s] := by
  rw [pieces_eq_splitOn, List.splitOn_eq_singleton h]

theorem pieces_ne_nil (s : FilePath) : pieces s ≠ [] := pieces_eq_splitOn s ▸ List.splitOn_ne_nil Byte.slash s

theorem isAbsolute_of_slash_notMem {s : FilePath} (h : Byte.slash ∉ s) : isAbsolute s = false := by
  rw [isAbsolute, decide_eq_false_iff_not]
  exact fun hhead => h (List.mem_of_mem_head? hhead)

theorem components_join {base : FilePath} {name : FileName} (hbase : base ≠ []) (h : IsName name) :
    components (join base name) = components base ++ [.name name] := by
  have hname : pieces name = [name] := pieces_of_slash_notMem h.slash
  simp only [join, isAbsolute_of_slash_notMem h.slash, Bool.false_eq_true, ↓reduceIte, components]
  split
  · rename_i hslash
    obtain ⟨s, rfl⟩ := List.getLast?_eq_some_iff.1 (hslash.resolve_left (by simpa using hbase))
    have hnil : pieces [] = [[]] := rfl
    have hidle : PathComponent.ofPiece [] = none := rfl
    rw [List.append_assoc, List.singleton_append, pieces_append_slash, pieces_append_slash, hname, hnil,
      front_concat_congr (pieces_ne_nil s) _ []]
    simp [h.component_eq, hidle]
  · have hne : pieces base ≠ [[]] := by
      intro hp
      have hnil : [Byte.slash].intercalate (pieces base) = [] := by rw [hp]; rfl
      rw [pieces_eq_splitOn, List.intercalate_splitOn] at hnil
      exact hbase hnil
    rw [pieces_append_slash, hname, front_concat (pieces_ne_nil _) hne]
    simp [h.component_eq]

theorem join_ne_nil {base : FilePath} (h : base ≠ []) (path : FilePath) (hpath : path ≠ []) :
    join base path ≠ [] := by
  rcases join_cases base path with hj | hj | hj <;> rw [hj]
  · exact hpath
  · simp [h]
  · simp [h]

/-- The components of what lies below a directory are its own and the names that lead there. -/
theorem components_joinAll {base : FilePath} {names : List FileName} (hbase : base ≠ [])
    (h : ∀ n ∈ names, IsName n) :
    components (joinAll base names) = components base ++ names.map .name := by
  unfold joinAll
  induction names generalizing base with
  | nil => simp
  | cons n ns ih =>
    have hn : IsName n := h n List.mem_cons_self
    rw [List.foldl_cons, ih (join_ne_nil hbase n hn.ne_nil) (fun m hm => h m (List.mem_cons_of_mem n hm)),
      components_join hbase hn, List.append_assoc]
    rfl

theorem compare_joinAll {base : FilePath} {names names' : List FileName} (hbase : base ≠ [])
    (h : ∀ n ∈ names, IsName n) (h' : ∀ n ∈ names', IsName n) :
    compare (components (joinAll base names)) (components (joinAll base names')) = compare names names' := by
  rw [components_joinAll hbase h, components_joinAll hbase h', PathComponent.compare_append_left,
    PathComponent.compare_map_name]

end Path

end BodyLength
