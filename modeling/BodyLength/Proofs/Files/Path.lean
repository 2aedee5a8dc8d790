import BodyLength.Files.Disk
/-!
# The steps of composed paths

Looking up a path only depends on the pieces between its slashes. A path that is put
together from others takes the steps of one after the steps of the other, whatever slashes,
dots and double dots they are spelled with.
-/

namespace BodyLength

namespace Path

/-! ## Splitting at slashes -/

theorem pieces_eq_splitOn (s : FilePath) : pieces s = s.splitOn Byte.slash := by
  induction s with
  | nil => rfl
  | cons c s ih =>
    rw [List.splitOn_cons_eq_if_modifyHead, ← ih]
    simp only [pieces, beq_iff_eq]
    have hne : pieces s ≠ [] := ih ▸ List.splitOn_ne_nil Byte.slash s
    obtain ⟨p, ps, hp⟩ := List.exists_cons_of_ne_nil hne
    rw [hp]
    rfl

theorem slash_notMem_of_mem_pieces {s : FilePath} {p : List UInt8} (h : p ∈ pieces s) : Byte.slash ∉ p := by
  induction s generalizing p with
  | nil => simp_all [pieces]
  | cons c s ih =>
    rw [pieces] at h
    split at h
    · rcases List.mem_cons.1 h with rfl | h
      · exact List.not_mem_nil
      · exact ih h
    · rename_i hc
      cases hs : pieces s with
      | nil => simp_all [Ne.symm hc]
      | cons q qs =>
        simp only [hs, List.mem_cons] at h ih
        rcases h with rfl | h
        · simp [Ne.symm hc, ih]
        · exact ih (.inr h)

theorem intercalate_prefix (ps qs : List (List UInt8)) :
    [Byte.slash].intercalate ps <+: [Byte.slash].intercalate (ps ++ qs) := by
  induction ps with
  | nil => exact List.nil_prefix
  | cons p ps ih =>
    cases ps with
    | nil => cases qs <;> simp [List.intercalate_cons_cons]
    | cons r rs =>
      rw [List.intercalate_cons_cons, List.cons_append, List.cons_append, List.intercalate_cons_cons]
      exact (List.prefix_append_right_inj _).2 ih

theorem mem_of_mem_intercalate {b : UInt8} {ps : List (List UInt8)} (h : b ∈ [Byte.slash].intercalate ps) :
    b = Byte.slash ∨ ∃ p ∈ ps, b ∈ p := by
  induction ps with
  | nil => simp at h
  | cons p ps ih =>
    cases ps with
    | nil => exact .inr ⟨p, by simpa using h⟩
    | cons q qs =>
      rw [List.intercalate_cons_cons, List.mem_append, List.mem_append, List.mem_singleton] at h
      rcases h with (h | h) | h
      · exact .inr ⟨p, by simp, h⟩
      · exact .inl h
      · exact (ih h).imp_right fun ⟨q, hq, hb⟩ => ⟨q, List.mem_cons_of_mem p hq, hb⟩

/-! ## Absolute paths -/

/-- The absolute path with given pieces, the last one first. -/
def absolute (lastFirst : List (List UInt8)) : FilePath :=
  Byte.slash :: [Byte.slash].intercalate lastFirst.reverse

theorem absolute_prefix (p : List UInt8) (ps : List (List UInt8)) : absolute ps <+: absolute (p :: ps) := by
  rw [absolute, absolute, List.reverse_cons]
  exact List.cons_prefix_cons.2 ⟨rfl, intercalate_prefix _ _⟩

theorem absolute_pieces (s : FilePath) : absolute (pieces s).reverse = Byte.slash :: s := by
  rw [absolute, List.reverse_reverse, pieces_eq_splitOn, List.intercalate_splitOn]

theorem exists_cons_of_isAbsolute {path : FilePath} (h : isAbsolute path = true) :
    ∃ s, path = Byte.slash :: s := by
  simpa [isAbsolute, List.head?_eq_some_iff] using h

/-! ## Joining -/

theorem isAbsolute_append {base : FilePath} (h : isAbsolute base = true) (path : FilePath) :
    isAbsolute (base ++ path) = true := by
  simp only [isAbsolute, decide_eq_true_eq] at h ⊢
  rw [List.head?_append, h, Option.some_or]

theorem ne_nil_of_isAbsolute {path : FilePath} (h : isAbsolute path = true) : path ≠ [] := by
  rintro rfl
  exact absurd h (by decide)

section
variable (base path : FilePath)

theorem join_of_isAbsolute (h : isAbsolute path = true) : join base path = path := if_pos h

theorem join_cases :
    join base path = path ∨ join base path = base ++ path ∨ join base path = base ++ Byte.slash :: path := by
  unfold join
  split
  · exact .inl rfl
  split
  · exact .inr (.inl rfl)
  · exact .inr (.inr rfl)

theorem isAbsolute_join (h : isAbsolute base = true) : isAbsolute (join base path) = true := by
  by_cases hpath : isAbsolute path = true
  · rwa [join_of_isAbsolute base path hpath]
  rw [join, if_neg hpath]
  split
  · exact isAbsolute_append h path
  · exact isAbsolute_append h _

theorem mem_join {b : UInt8} (h : b ∈ join base path) : b ∈ base ∨ b = Byte.slash ∨ b ∈ path := by
  rcases join_cases base path with hj | hj | hj <;> rw [hj] at h
  · exact .inr (.inr h)
  · exact (List.mem_append.1 h).imp_right .inr
  · exact (List.mem_append.1 h).imp_right List.mem_cons.1

theorem length_join_le : (join base path).length ≤ base.length + 1 + path.length := by
  rcases join_cases base path with hj | hj | hj <;> rw [hj]
  · exact Nat.le_add_left _ _
  · rw [List.length_append]
    omega
  · rw [List.length_append, List.length_cons]
    omega

end

end Path

namespace PathStep

/-! ## The steps of a path -/

/-- The steps of a path without the one that a slash at its end stands for. -/
def within (path : FilePath) : List PathStep := (Path.pieces path).filterMap ofPiece

theorem ofPath_eq (path : FilePath) :
    ofPath path = within path ++ if path.getLast? = some Byte.slash then [.stay] else [] := by
  unfold ofPath within
  split <;> simp

theorem ofPiece_of_isIdle {p : List UInt8} (h : Path.isIdle p = true) :
    ofPiece p = none ∨ ofPiece p = some .stay := by
  simp only [Path.isIdle, Bool.or_eq_true, List.isEmpty_iff, beq_iff_eq] at h
  rcases h with rfl | rfl
  · exact .inl rfl
  · exact .inr rfl

theorem ofPiece_of_not_isIdle {p : List UInt8} (h : ¬ Path.isIdle p = true) :
    ∃ step, ofPiece p = some step ∧ step ≠ .stay := by
  simp only [Path.isIdle, Bool.or_eq_true, List.isEmpty_iff, beq_iff_eq, not_or] at h
  rw [ofPiece, if_neg h.1, if_neg h.2]
  split
  · exact ⟨.up, rfl, nofun⟩
  · exact ⟨_, rfl, nofun⟩

theorem within_nil : within [] = [] := rfl

theorem within_append_slash (s t : FilePath) : within (s ++ Byte.slash :: t) = within s ++ within t := by
  simp [within, Path.pieces_eq_splitOn, List.splitOn_append_cons_self]

theorem within_slash_cons (s : FilePath) : within (Byte.slash :: s) = within s :=
  within_append_slash [] s

theorem within_absolute {ps : List (List UInt8)} (h : ∀ p ∈ ps, Byte.slash ∉ p) :
    within (Path.absolute ps) = ps.reverse.filterMap ofPiece := by
  rw [Path.absolute, within_slash_cons, within]
  cases ps with
  | nil => rfl
  | cons p ps =>
    rw [Path.pieces_eq_splitOn, List.splitOn_intercalate Byte.slash (fun q hq => h q (List.mem_reverse.1 hq)) (by simp)]

/-! ## The steps of a joined path -/

theorem ofPath_join {base path : FilePath} (hrel : Path.isAbsolute path = false) (hne : path ≠ []) :
    ofPath (Path.join base path) = within base ++ ofPath path := by
  obtain ⟨b, hb⟩ := Option.ne_none_iff_exists'.1 (show path.getLast? ≠ none by simpa using hne)
  simp only [Path.join, hrel, Bool.false_eq_true, ↓reduceIte]
  split
  · rename_i hbase
    rcases hbase with hbase | hbase
    · obtain rfl := List.isEmpty_iff.1 hbase
      simp [ofPath_eq, within_nil]
    · obtain ⟨s, rfl⟩ := List.getLast?_eq_some_iff.1 hbase
      simp [ofPath_eq, within_append_slash, within_nil, List.getLast?_cons, hb]
  · simp [ofPath_eq, within_append_slash, List.getLast?_cons, hb]

end PathStep

/-! ## Names -/

/-- A name that an entry of a directory can have. -/
structure IsName (name : FileName) : Prop where
  ne_nil : name ≠ []
  ne_dot : name ≠ [Byte.dot]
  ne_dots : name ≠ [Byte.dot, Byte.dot]
  slash : Byte.slash ∉ name
  zero : 0 ∉ name
  short : name.length ≤ Disk.nameLimit

instance (name : FileName) : Decidable (IsName name) :=
  decidable_of_iff (name ≠ [] ∧ name ≠ [Byte.dot] ∧ name ≠ [Byte.dot, Byte.dot] ∧ Byte.slash ∉ name ∧ 0 ∉ name ∧
      name.length ≤ Disk.nameLimit)
    ⟨fun ⟨h₁, h₂, h₃, h₄, h₅, h₆⟩ => ⟨h₁, h₂, h₃, h₄, h₅, h₆⟩,
      fun h => ⟨h.ne_nil, h.ne_dot, h.ne_dots, h.slash, h.zero, h.short⟩⟩

theorem IsName.ofPiece_eq {name : FileName} (h : IsName name) : PathStep.ofPiece name = some (.enter name) := by
  rw [PathStep.ofPiece, if_neg h.ne_nil, if_neg h.ne_dot, if_neg h.ne_dots]

end BodyLength
