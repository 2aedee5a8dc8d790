import BodyLength.Proofs.Config.Resolution
import BodyLength.Proofs.Files.Components
import BodyLength.Proofs.Text.Blank
import BodyLength.Proofs.Text.Utf8
import Mathlib.Data.List.TakeWhile
/-!
# Which file names an extension finds

The extension of a file name is what follows its last dot. So of a configured extension with a dot inside,
such as `tar.gz`, only the last part is ever compared, and it finds a file only if that part is configured
as well (`Config.supports_iff`).
-/

namespace BodyLength

/-! ## What follows the last dot -/

section
variable {α : Type} [DecidableEq α] {x : α} {l : List α}

/-- What follows the last `x` of a list, or all of it if there is none. -/
def behindLast (x : α) (l : List α) : List α := (l.reverse.takeWhile (· != x)).reverse

theorem behindLast_of_notMem (h : x ∉ l) : behindLast x l = l := by
  have hall : ∀ y ∈ l.reverse, (y != x) = true := by
    intro y hy
    rw [bne_iff_ne]
    rintro rfl
    exact h (List.mem_reverse.1 hy)
  rw [behindLast, List.takeWhile_eq_self_iff.2 hall, List.reverse_reverse]

theorem behindLast_append_cons (front : List α) (x : α) (l : List α) :
    behindLast x (front ++ x :: l) = behindLast x l := by
  have hstop : (x :: front.reverse).takeWhile (· != x) = [] := List.takeWhile_cons_of_neg (by simp)
  rw [behindLast, behindLast, List.reverse_append, List.reverse_cons, List.append_assoc,
    List.singleton_append, List.takeWhile_append, hstop, List.append_nil]
  split
  · next h => rw [(List.takeWhile_prefix _).eq_of_length h]
  · rfl

theorem behindLast_append_of_mem (h : x ∈ l) (front : List α) : behindLast x (front ++ l) = behindLast x l := by
  obtain ⟨p, q, rfl⟩ := List.append_of_mem h
  rw [← List.append_assoc, behindLast_append_cons, behindLast_append_cons]

theorem length_behindLast_le (x : α) (l : List α) : (behindLast x l).length ≤ l.length := by
  rw [behindLast, List.length_reverse, ← l.length_reverse]
  exact (List.takeWhile_prefix _).length_le

end

/-- The case of letters does not move the dots. -/
theorem behindLast_map_lowerAscii (s : List Char) :
    behindLast '.' (s.map lowerAscii) = (behindLast '.' s).map lowerAscii := by
  have hdot : ((· != '.') ∘ lowerAscii) = (· != '.') := by
    funext c
    rw [Function.comp_apply, Bool.eq_iff_iff, bne_iff_ne, bne_iff_ne, Ne, lowerAscii_eq_iff (by decide)]
  rw [behindLast, behindLast, ← List.map_reverse, List.takeWhile_map, hdot, List.map_reverse]

/-- The last dot of a text is that of its bytes. -/
theorem behindLast_bytes (s : List Char) :
    behindLast Byte.dot (bytes (.ofList s)) = bytes (.ofList (behindLast '.' s)) := by
  have hmem (s : List Char) : Byte.dot ∈ bytes (.ofList s) ↔ '.' ∈ s := by
    rw [mem_bytes_iff (by decide), String.toList_ofList]
    rfl
  have hcons (c : Char) (s : List Char) : bytes (.ofList (c :: s)) = bytes (.ofList [c]) ++ bytes (.ofList s) := by
    rw [← bytes_append, ← String.ofList_append, List.singleton_append]
  induction s with
  | nil => rfl
  | cons c s ih =>
    by_cases hs : '.' ∈ s
    · rw [hcons, behindLast_append_of_mem ((hmem s).2 hs), ih, ← List.singleton_append, behindLast_append_of_mem hs]
    by_cases hc : c = '.'
    · have hdot : bytes (.ofList ['.']) = [Byte.dot] := by decide +kernel
      have hnil : '.' :: s = [] ++ '.' :: s := rfl
      rw [hc, hcons, hdot, hnil, behindLast_append_cons, behindLast_of_notMem hs, List.singleton_append,
        ← List.nil_append (Byte.dot :: _), behindLast_append_cons, behindLast_of_notMem (mt (hmem s).1 hs)]
    · have hnot : '.' ∉ c :: s := List.not_mem_cons_of_ne_of_not_mem (Ne.symm hc) hs
      rw [behindLast_of_notMem hnot, behindLast_of_notMem (mt (hmem _).1 hnot)]

namespace Path

/-! ## File names -/

theorem extensionOf?_append_dot {stem : List UInt8} (h : stem ≠ []) (ext : List UInt8) :
    extensionOf? (stem ++ Byte.dot :: ext) = some (behindLast Byte.dot ext) := by
  have hstem := List.length_pos_iff.2 h
  have hle := length_behindLast_le Byte.dot ext
  have hlong : ¬ (stem ++ Byte.dot :: ext).length ≤ (behindLast Byte.dot (stem ++ Byte.dot :: ext)).length + 1 := by
    rw [behindLast_append_cons, List.length_append, List.length_cons]
    omega
  rw [← behindLast_append_cons stem Byte.dot ext]
  exact if_neg hlong

/-- A path without slashes is a file name, unless it is empty or made of one or two dots. -/
theorem fileName?_of_slash_notMem {name : FileName} (hslash : Byte.slash ∉ name) (hidle : ¬ isIdle name)
    (hdots : name ≠ [Byte.dot, Byte.dot]) : fileName? name = some name := by
  have hpieces : pieces name = [name] := pieces_of_slash_notMem hslash
  have hdot : name ≠ [Byte.dot] := by
    rintro rfl
    exact hidle rfl
  have hlead : lead name = [] := by simp [lead, isAbsolute_of_slash_notMem hslash, hpieces, hdot]
  rw [fileName?, fromLast, hlead, List.length_nil, List.drop_zero, hpieces, List.reverse_singleton,
    List.dropWhile_cons_of_neg hidle]
  exact if_neg hdots

end Path

namespace Config

variable {c : Config} {s : Settings} {ext : String} {stem : FileName} {spelling : String}

theorem extensions_of_resolve (hs : c.resolve = .ok s) (hext : ext ∈ c.extensions) :
    s.extensions = c.extensions.map normalExtension := by
  obtain ⟨-, includes, excludes, rfl⟩ := of_resolve hs
  have hne : ¬ c.extensions.isEmpty := by
    rw [List.isEmpty_iff]
    exact List.ne_nil_of_mem hext
  exact if_neg hne

/-- A name with a dot and an accepted extension is a file name. -/
theorem fileName?_of_isExtension (h : isExtension ext) (hne : stem ≠ []) (hslash : Byte.slash ∉ stem)
    (hcase : spelling.toList.map lowerAscii = normalExtension ext) :
    Path.fileName? (stem ++ Byte.dot :: bytes spelling) = some (stem ++ Byte.dot :: bytes spelling) := by
  have hnoSlash : Byte.slash ∉ bytes spelling := by
    have hchar : Char.ofNat Byte.slash.toNat = '/' := by decide
    rw [mem_bytes_iff (by decide), hchar, ← mem_map_lowerAscii_iff (by decide), hcase, normalExtension,
      mem_map_lowerAscii_iff (by decide)]
    exact (isExtension_iff.1 h).2.1
  have hspelling : bytes spelling ≠ [] := by
    intro hnil
    have hempty : spelling = "" := bytes_injective hnil
    rw [hempty, normalExtension] at hcase
    exact (isExtension_iff.1 h).1 (List.map_eq_nil_iff.1 hcase.symm)
  have hlong : 3 ≤ (stem ++ Byte.dot :: bytes spelling).length := by
    have hstem := List.length_pos_iff.2 hne
    have hext := List.length_pos_iff.2 hspelling
    rw [List.length_append, List.length_cons]
    omega
  generalize hname : stem ++ Byte.dot :: bytes spelling = name at hlong ⊢
  have hslashName : Byte.slash ∉ name := by
    have hdot : Byte.slash ≠ Byte.dot := by decide
    simp [← hname, hslash, hnoSlash, hdot]
  apply Path.fileName?_of_slash_notMem hslashName
  · simp only [Path.isIdle, Bool.or_eq_true, List.isEmpty_iff, beq_iff_eq]
    rintro (rfl | rfl) <;> exact absurd hlong (by decide)
  · rintro rfl
    exact absurd hlong (by decide)

/-- A name is found by the part of its extension behind the last dot. -/
theorem supports_iff (hs : c.resolve = .ok s) (hext : ext ∈ c.extensions) (hne : stem ≠ [])
    (hslash : Byte.slash ∉ stem) (hcase : spelling.toList.map lowerAscii = normalExtension ext) :
    s.filter.supports (stem ++ Byte.dot :: bytes spelling) ↔
      behindLast '.' (normalExtension ext) ∈ c.extensions.map normalExtension := by
  have hname := fileName?_of_isExtension ((of_resolve hs).1.isExtension ext hext) hne hslash hcase
  have hbehind : behindLast Byte.dot (bytes spelling) = bytes (.ofList (behindLast '.' spelling.toList)) := by
    rw [← behindLast_bytes, String.ofList_toList]
  rw [FileFilter.supports, hname, Option.any_some, FileFilter.hasExtension, Path.extensionOf?_append_dot hne,
    hbehind, Option.bind_some, text?_bytes]
  simp only [String.toList_ofList, List.contains_iff_mem]
  rw [← behindLast_map_lowerAscii, hcase, ← extensions_of_resolve hs hext]
  rfl

/-! ## Main theorem -/

/-- A configuration that is accepted has settings. In them an extension, in letters of any case, finds the names
that end in it if and only if the part of it behind its last dot is configured. So an extension without a dot
inside always does. -/
theorem accepted_extension_finds_iff (h : c.validate = .ok ()) :
    ∃ s, c.resolve = .ok s ∧ ∀ ext ∈ c.extensions, ∀ (stem : FileName) (spelling : String),
      stem ≠ [] → Byte.slash ∉ stem → spelling.toList.map lowerAscii = normalExtension ext →
        (s.filter.supports (stem ++ Byte.dot :: bytes spelling) ↔
          behindLast '.' (normalExtension ext) ∈ c.extensions.map normalExtension) ∧
        ('.' ∉ trimDots ext → s.filter.supports (stem ++ Byte.dot :: bytes spelling)) := by
  obtain ⟨s, hs⟩ := exists_resolve h
  refine ⟨s, hs, fun ext hext stem spelling hne hslash hcase => ?_⟩
  have hiff := supports_iff hs hext hne hslash hcase
  refine ⟨hiff, fun hdot => hiff.2 ?_⟩
  have hnormal : '.' ∉ normalExtension ext := by rwa [normalExtension, mem_map_lowerAscii_iff (by decide)]
  rw [behindLast_of_notMem hnormal]
  exact List.mem_map_of_mem hext

/-- Dots in front of an extension do not count, nor does the case of its letters. A dot inside does no harm if
the part behind it is an extension as well. -/
theorem accepted_extension_finds_parts :
    let c : Config := { extensions := ["..Gz", "tar.gz"] }
    c.validate = .ok () ∧ ∃ s, c.resolve = .ok s ∧ s.filter.supports (bytes "x.y.gZ") ∧
      s.filter.supports (bytes "x.TAR.gz") := by
  intro c
  have h : c.validate = .ok () := rfl
  obtain ⟨s, hs, hfinds⟩ := accepted_extension_finds_iff h
  have hgz := hfinds "..Gz" (by decide) (bytes "x.y") "gZ" (by decide +kernel) (by decide +kernel) (by decide)
  have htar := hfinds "tar.gz" (by decide) (bytes "x") "TAR.gz" (by decide +kernel) (by decide +kernel) (by decide)
  have hgzName : bytes "x.y.gZ" = bytes "x.y" ++ Byte.dot :: bytes "gZ" := by decide +kernel
  have htarName : bytes "x.TAR.gz" = bytes "x" ++ Byte.dot :: bytes "TAR.gz" := by decide +kernel
  rw [hgzName, htarName]
  exact ⟨h, s, hs, hgz.2 (by decide), htar.1.2 (by decide)⟩

/-- The extension `tar.gz` is accepted, but a file that ends in it is not found. -/
theorem dotted_extension_not_found :
    let c : Config := { extensions := ["tar.gz"] }
    c.validate = .ok () ∧ trimDots "tar.gz" = "tar.gz".toList ∧
      ∃ s, c.resolve = .ok s ∧ s.filter.supports (bytes "a.tar.gz") = false := by
  intro c
  have h : c.validate = .ok () := rfl
  obtain ⟨s, hs⟩ := exists_resolve h
  have hext : "tar.gz" ∈ c.extensions := List.mem_singleton.2 rfl
  have hname : bytes "a.tar.gz" = bytes "a" ++ Byte.dot :: bytes "tar.gz" := by decide +kernel
  have hnot : ¬ s.filter.supports (bytes "a" ++ Byte.dot :: bytes "tar.gz") := by
    rw [supports_iff hs hext (by decide +kernel) (by decide +kernel) (by decide)]
    decide
  rw [hname]
  exact ⟨h, by decide, s, hs, Bool.eq_false_iff.2 hnot⟩

end Config

end BodyLength
