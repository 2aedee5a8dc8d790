import BodyLength.Proofs.Scan.Composition
import BodyLength.Proofs.Scan.LineBreaks
import Mathlib.Data.List.TakeWhile
/-!
# Indenting the lines of a text

A scan that lets the opening brace stand behind blanks does not see how the lines of a text are indented
(`scan_reindent`). The indentation of the first line holds no identifier, so it only moves what follows
(`scan_append_of_no_identifier`). That of any other line makes a line break together with the newline
before it, so behind its first indentation the text is the old one with other line breaks.
-/

namespace BodyLength

/-! ## Text without identifiers in front -/

section
variable {t₁ t₂ : String} (h : ∀ b ∈ bytes t₁, Byte.isIdentifier b = false)
include h

theorem Signature.identifierFrom_append :
    identifierFrom (.start (bytes (t₁ ++ t₂))) = identifierFrom ((Cursor.start (bytes t₂)).precededBy (bytes t₁)) := by
  have hstart : Cursor.start (bytes (t₁ ++ t₂)) = (Cursor.start (bytes t₁)).followedBy (bytes t₂) := by
    rw [bytes_append]
    rfl
  rw [hstart, identifierFrom, Cursor.skipWhile_followedBy_of_all, Cursor.toEnd_start_followedBy, identifierFrom]
  intro b hb
  rw [h b hb]
  rfl

theorem signatures_append_of_no_identifier (mode : SignatureMode) :
    signatures mode (t₁ ++ t₂) = (signatures mode t₂).map (·.precededBy (bytes t₁)) := by
  rw [signatures_eq, signatures_eq, Signature.openings_congr mode (Signature.identifierFrom_append h),
    Signature.openings_precededBy, List.filterMap_map, List.map_filterMap]
  apply List.filterMap_congr
  intro a _
  exact Opening.signature?_precededBy mode a _

theorem signatures_of_no_identifier (mode : SignatureMode) : signatures mode t₁ = [] := by
  have hnone : (Signature.identifierFrom (.start (bytes t₁))).rest = [] := by
    rw [Signature.identifierFrom, Cursor.rest_skipWhile, List.dropWhile_eq_nil_iff]
    intro b hb
    rw [h b hb]
    rfl
  rw [signatures_eq, Signature.openings_of_nil mode hnone, List.filterMap_nil]

/-- Text without identifiers only moves down what follows it. -/
theorem scan_append_of_no_identifier (options : ScanOptions) :
    scan (t₁ ++ t₂) options = (scan t₂ options).map (·.moveDown ((bytes t₁).count Byte.newline)) := by
  have hfirst : bodies t₁ options = [] := by
    rw [bodies, signatures_of_no_identifier h, List.filterMap_nil]
  have happend : bodies (t₁ ++ t₂) options =
      (bodies t₁ options).map (·.followedBy (bytes t₂)) ++ (bodies t₂ options).map (·.precededBy (bytes t₁)) := by
    rw [hfirst, List.map_nil, List.nil_append, bodies, bodies, signatures_append_of_no_identifier h,
      List.filterMap_map, List.map_filterMap]
    apply List.filterMap_congr
    intro x _
    exact Body.of?_precededBy options.bracePlacement x _
  rw [scan_eq, scan_eq, bodyReports_append happend]
  rw [bodyReports, hfirst, List.map_nil, List.nil_append]

end

/-! ## Line breaks that begin with their newline -/

/-- Nothing stands before the newline. -/
def LineBreak.BeginsWithNewline (w : LineBreak) : Prop := w.before = []

theorem LineBreak.blank_of_mem_nil : ∀ b ∈ ([] : List UInt8), Byte.isBlank b := List.forall_mem_nil _

namespace Respaced

variable {l l' : List UInt8}

theorem head?_eq (h : Respaced LineBreak.BeginsWithNewline l l') : l.head? = l'.head? := by
  cases h with
  | nil => rfl
  | byte => rfl
  | @newline w _ _ hw _ =>
    rw [LineBreak.text, show w.before = [] from hw]
    rfl

theorem count_newline_drop_one (h : Respaced LineBreak.BeginsWithNewline l l') :
    (l.drop 1).count Byte.newline = (l'.drop 1).count Byte.newline := by
  cases h with
  | nil => rfl
  | byte _ h => exact h.count_newline
  | @newline w l l' hw h =>
    have hafter : w.after.count Byte.newline = 0 :=
      List.count_eq_zero.2 (LineBreak.newline_notMem w.blank_of_mem_after)
    rw [LineBreak.text, show w.before = [] from hw]
    show l.count Byte.newline = (w.after ++ l').count Byte.newline
    rw [List.count_append, hafter, Nat.zero_add, h.count_newline]

end Respaced

theorem sameFirstLines_beginsWithNewline (bs bs' : List UInt8) :
    SameFirstLines LineBreak.BeginsWithNewline bs bs' := by
  intro o o' h
  rw [drop_linesFrom, drop_linesFrom, h.head?_eq]
  split
  next hcr =>
    -- a carriage return behind the brace belongs to its line, which is not indented there
    have hbehind := h.drop_one (h.head?_eq.trans hcr) (by decide)
    rw [← List.drop_drop (i := 1) (j := 1), ← List.drop_drop (i := 1) (j := 1)]
    exact hbehind.count_newline_drop_one
  · exact h.count_newline_drop_one

/-! ## Indentations -/

/-- Spaces and tabs. -/
structure Indentation where
  text : String
  eq_of_mem : ∀ c ∈ text.toList, c = ' ' ∨ c = '\t'

namespace Indentation

variable (w : Indentation)

theorem blank_of_mem_bytes : ∀ b ∈ bytes w.text, Byte.isBlank b := by
  intro b hb
  rw [bytes_eq] at hb
  obtain ⟨c, hc, hb⟩ := List.mem_flatMap.1 hb
  rcases w.eq_of_mem c hc with rfl | rfl
  · rw [List.mem_singleton.1 hb]
    rfl
  · rw [List.mem_singleton.1 hb]
    rfl

theorem not_isIdentifier_of_mem_bytes : ∀ b ∈ bytes w.text, Byte.isIdentifier b = false := by
  intro b hb
  exact Byte.not_isIdentifier_of_isWhite (Byte.isWhite_of_isBlank (w.blank_of_mem_bytes b hb))

theorem count_newline_bytes : (bytes w.text).count Byte.newline = 0 :=
  List.count_eq_zero.2 (LineBreak.newline_notMem w.blank_of_mem_bytes)

/-- A newline with the indentation of the next line. -/
def lineBreak : LineBreak where
  before := []
  after := bytes w.text
  blank_of_mem_before := LineBreak.blank_of_mem_nil
  blank_of_mem_after := w.blank_of_mem_bytes

theorem text_lineBreak : w.lineBreak.text = Byte.newline :: bytes w.text := rfl

end Indentation

/-- The lines of a text, each behind its indentation; the first one has number 0. -/
def indentedLines (indent : Nat → Indentation) (cs : List Char) : List (List Char) :=
  (cs.splitOn '\n').mapIdx fun n line => (indent n).text.toList ++ line

/-- The text with its lines indented. -/
def reindent (indent : Nat → Indentation) (text : String) : String :=
  .ofList (['\n'].intercalate (indentedLines indent text.toList))

section
variable (indent : Nat → Indentation) {l : List Char} (hl : '\n' ∉ l)
include hl

theorem indentedLines_of_notMem : indentedLines indent l = [(indent 0).text.toList ++ l] := by
  rw [indentedLines, List.splitOn_eq_singleton hl, List.mapIdx_cons, List.mapIdx_nil]

theorem intercalate_indentedLines (r : List Char) : ['\n'].intercalate (indentedLines indent (l ++ '\n' :: r)) =
    (indent 0).text.toList ++ l ++ '\n' :: ['\n'].intercalate (indentedLines (fun n => indent (n + 1)) r) := by
  have hne : indentedLines (fun n => indent (n + 1)) r ≠ [] := List.mapIdx_ne_nil_iff.2 (List.splitOn_ne_nil '\n' r)
  obtain ⟨y, ys, hy⟩ := List.exists_cons_of_ne_nil hne
  rw [indentedLines, List.splitOn_append_cons_self_of_not_mem hl, List.mapIdx_cons]
  show ['\n'].intercalate (_ :: indentedLines (fun n => indent (n + 1)) r) = _
  rw [hy, List.intercalate_cons_cons, List.append_assoc, List.singleton_append]

theorem newline_notMem_flatMap : Byte.newline ∉ l.flatMap String.utf8EncodeChar := by
  intro hn
  obtain ⟨c, hc, hn⟩ := List.mem_flatMap.1 hn
  rw [mem_utf8EncodeChar_iff (by decide)] at hn
  exact hl (hn ▸ hc)

end

theorem exists_respaced_indentedLines (indent : Nat → Indentation) (cs : List Char) : ∃ rest,
    ['\n'].intercalate (indentedLines indent cs) = (indent 0).text.toList ++ rest ∧
      Respaced LineBreak.BeginsWithNewline (cs.flatMap String.utf8EncodeChar) (rest.flatMap String.utf8EncodeChar) := by
  -- the induction is on the lines, each taken off with its newline
  induction hn : cs.length using Nat.strongRecOn generalizing cs indent with
  | ind n ih =>
    by_cases hmem : '\n' ∈ cs
    · obtain ⟨l, r, rfl, hl⟩ := List.eq_append_cons_of_mem hmem
      have hlt : r.length < n := by
        rw [← hn, List.length_append, List.length_cons]
        omega
      obtain ⟨rest, hrest, hr⟩ := ih r.length hlt (fun n => indent (n + 1)) r rfl
      refine ⟨l ++ '\n' :: ((indent 1).text.toList ++ rest), ?_, ?_⟩
      · rw [intercalate_indentedLines indent hl, hrest, List.append_assoc]
      · have hbreak : Respaced LineBreak.BeginsWithNewline (Byte.newline :: r.flatMap String.utf8EncodeChar)
            ((indent 1).lineBreak.text ++ rest.flatMap String.utf8EncodeChar) := .newline rfl hr
        rw [Indentation.text_lineBreak, bytes_eq] at hbreak
        rw [List.flatMap_append, List.flatMap_append, List.flatMap_cons, List.flatMap_cons, List.flatMap_append]
        exact .append_left (newline_notMem_flatMap hl) hbreak
    · refine ⟨cs, ?_, ?_⟩
      · rw [indentedLines_of_notMem indent hmem, List.intercalate_singleton]
      · rw [← List.append_nil (cs.flatMap _)]
        exact .append_left (newline_notMem_flatMap hmem) .nil

/-- Behind the indentation of its first line, an indented text is the old one with other line breaks. -/
theorem exists_respaced_reindent (indent : Nat → Indentation) (text : String) : ∃ rest : String,
    reindent indent text = (indent 0).text ++ rest ∧
      Respaced LineBreak.BeginsWithNewline (bytes text) (bytes rest) := by
  obtain ⟨rest, hrest, hrespaced⟩ := exists_respaced_indentedLines indent text.toList
  refine ⟨.ofList rest, ?_, ?_⟩
  · rw [reindent, hrest, String.ofList_append, String.ofList_toList]
  · rwa [bytes_eq, bytes_eq, String.toList_ofList]

/-! ## Main theorem -/

/-- However the lines of a text are indented, the reports are the same, if the opening braces may stand
behind blanks. -/
theorem scan_reindent (indent : Nat → Indentation) (text : String) (mode : SignatureMode) (maxLines : UInt64) :
    scan (reindent indent text) { maxLines, bracePlacement := .lenient, signatureMode := mode } =
      scan text { maxLines, bracePlacement := .lenient, signatureMode := mode } := by
  obtain ⟨rest, hrest, hrespaced⟩ := exists_respaced_reindent indent text
  rw [hrest, scan_append_of_no_identifier (indent 0).not_isIdentifier_of_mem_bytes, (indent 0).count_newline_bytes,
    scan_respaced rfl hrespaced (sameFirstLines_beginsWithNewline _ _)]
  simp [FunctionReport.moveDown]

/-- The second line begins inside a string, behind an escaped newline, and the third inside a comment. -/
example : (scan (reindent (fun _ => ⟨" \t", by simp⟩) "f() \x7b\"\\\n\x7d\" /*\n\x7d*/\n\x7d")
    { bracePlacement := .lenient }).map (fun r => (r.signatureLine, r.closeLine, r.lineCount)) = [(1, 4, 3)] := by
  decide +kernel

end BodyLength
