import BodyLength.Proofs.Scan.Places
import Mathlib.Data.List.Forall2
import Mathlib.Data.List.TakeWhile
/-!
# What reports say of lines

A report has two sources for its lines: the index of the text, for the lines its function stands
on, and a count of the newlines in the body. Both come down to the newlines before an offset, so
they agree (`Body.FoundIn.newlinesBefore_close`): the lines of a body are those from its opening
brace to its closing one, less the line break directly behind the opening brace.

`FunctionReport.Accounts` lists what makes a report right about a body.
-/

namespace BodyLength

/-- A line break, with or without a carriage return, directly follows the byte at offset `o`. -/
def EndsLine (bs : List UInt8) (o : Nat) : Prop :=
  bs[o + 1]? = some Byte.newline ∨ bs[o + 1]? = some Byte.carriageReturn ∧ bs[o + 2]? = some Byte.newline

instance (bs : List UInt8) (o : Nat) : Decidable (EndsLine bs o) :=
  inferInstanceAs (Decidable (_ ∨ _))

/-- The report `r` is right about the body `x` of a text. -/
structure FunctionReport.Accounts (r : FunctionReport) (text : String) (options : ScanOptions) (x : Body) : Prop where
  signature_mem : x.signature ∈ signatures options.signatureMode text
  opens : options.bracePlacement.locate? x.signature.behind = some x.brace
  closes : (BraceMatch.search .never 0 x.brace).1 = .closed x.close
  open_at : (bytes text)[x.brace.offset]? = some Byte.leftBrace
  close_at : (bytes text)[x.close]? = some Byte.rightBrace
  signatureLine_eq : r.signatureLine.toNat = newlinesBefore (bytes text) x.signature.start + 1
  openLine_eq : ((LineIndex.ofBytes (bytes text)).lineOf x.brace.offset).toNat =
    newlinesBefore (bytes text) x.brace.offset + 1
  closeLine_eq : r.closeLine.toNat = newlinesBefore (bytes text) x.close + 1
  signatureLine_pos : 1 ≤ r.signatureLine
  signatureLine_le : r.signatureLine ≤ (LineIndex.ofBytes (bytes text)).lineOf x.brace.offset
  openLine_le : (LineIndex.ofBytes (bytes text)).lineOf x.brace.offset ≤ r.closeLine
  closeLine_le : r.closeLine.toNat ≤ (textLines (bytes text)).length
  anchorLine_eq : r.anchorLine.toNat = r.closeLine.toNat + 1
  lineCount_add : r.lineCount.toNat + ((LineIndex.ofBytes (bytes text)).lineOf x.brace.offset).toNat +
    (if EndsLine (bytes text) x.brace.offset then 1 else 0) = r.closeLine.toNat
  lineCount_le : r.lineCount.toNat + r.signatureLine.toNat ≤ r.closeLine.toNat
  severity_iff : r.severity = .warning ↔ options.maxLines < r.lineCount
  name_eq : bytes r.name = ((bytes text).drop x.signature.start).takeWhile Byte.isIdentifier
  name_chars : ∀ c ∈ r.name.toList, c.isAlphanum ∨ c = '_'
  name_ne_empty : r.name ≠ ""

/-! ## Counting from the opening brace -/

/-- The bytes left out of the count behind an opening brace hold one newline if they end its line. -/
theorem newlinesBefore_linesFrom {bs : List UInt8} {o : Nat} (h : bs[o]? = some Byte.leftBrace) :
    newlinesBefore bs (linesFrom bs o) = newlinesBefore bs o + if EndsLine bs o then 1 else 0 := by
  have hbrace : newlinesBefore bs (o + 1) = newlinesBefore bs o := by
    rw [newlinesBefore_add_one, h]
    rfl
  rw [linesFrom]
  by_cases hcr : bs[o + 1]? = some Byte.carriageReturn
  · have hends : EndsLine bs o ↔ bs[o + 2]? = some Byte.newline := by
      simp [EndsLine, hcr, Byte.carriageReturn, Byte.newline]
    rw [if_pos hcr, newlinesBefore_add_one, newlinesBefore_add_one, hbrace, hcr, if_congr hends rfl rfl]
    rfl
  · have hends : EndsLine bs o ↔ bs[o + 1]? = some Byte.newline := by
      simp [EndsLine, hcr]
    rw [if_neg hcr, newlinesBefore_add_one, hbrace, if_congr hends rfl rfl]

namespace Body.FoundIn

variable {y : Body} {bs : List UInt8}

theorem close_ne (h : y.FoundIn bs) {i : Nat} {b : UInt8} (hi : bs[i]? = some b) (hb : b ≠ Byte.rightBrace) :
    y.close ≠ i := by
  rintro rfl
  exact hb (Option.some.inj (hi.symm.trans h.close_at))

/-- A line break behind an opening brace stands before the closing one. -/
theorem newlinesBefore_linesFrom_le (h : y.FoundIn bs) :
    newlinesBefore bs (linesFrom bs y.brace.offset) ≤ newlinesBefore bs y.close := by
  have hlt := h.brace_lt
  by_cases hends : EndsLine bs y.brace.offset
  · apply newlinesBefore_mono
    rw [linesFrom]
    rcases hends with hn | ⟨hcr, hn⟩
    · have hne := h.close_ne hn (by decide)
      rw [if_neg (by rw [hn]; decide)]
      omega
    · have hne := h.close_ne hcr (by decide)
      have hne' := h.close_ne hn (by decide)
      rw [if_pos hcr]
      omega
  · rw [newlinesBefore_linesFrom h.brace_at, if_neg hends]
    exact newlinesBefore_mono bs (Nat.le_of_lt hlt)

/-- The newlines before the closing brace are those before the opening one, the one that ends its
line and those that are counted. -/
theorem newlinesBefore_close (h : y.FoundIn bs) : newlinesBefore bs y.close =
    y.lineCount + newlinesBefore bs y.brace.offset + if EndsLine bs y.brace.offset then 1 else 0 := by
  have hle := h.newlinesBefore_linesFrom_le
  have hfrom := newlinesBefore_add_count_drop bs (linesFrom bs y.brace.offset)
  have hclose := newlinesBefore_add_count_drop bs y.close
  rw [h.lineCount_eq]
  rw [newlinesBefore_linesFrom h.brace_at] at hle hfrom
  omega

theorem lineCount_le (h : y.FoundIn bs) : y.lineCount ≤ newlinesBefore bs y.close := by
  rw [h.newlinesBefore_close]
  omega

end Body.FoundIn

/-! ## Names and severities -/

theorem Severity.classify_eq_warning {lineCount maxLines : UInt64} :
    classify lineCount maxLines = .warning ↔ maxLines < lineCount := by
  rw [classify]
  split <;> simp_all

theorem isAlphanum_of_isIdentifier {b : UInt8} (h : Byte.isIdentifier b) :
    (Char.ofNat b.toNat).isAlphanum ∨ Char.ofNat b.toNat = '_' := by
  have all : ∀ n < 128, Byte.isIdentifier n.toUInt8 → (Char.ofNat n).isAlphanum ∨ Char.ofNat n = '_' := by decide
  have hb := all b.toNat (UInt8.lt_iff_toNat_lt.1 (isIdentifier_lt h))
  rw [Nat.toUInt8, UInt8.ofNat_toNat] at hb
  exact hb h

namespace Signature.FoundAt

variable {x : Signature} {mode : SignatureMode} {bs : List UInt8} {o : Nat}

theorem bytes_name_eq_takeWhile (h : x.FoundAt mode bs o) :
    bytes x.name = (bs.drop x.start).takeWhile Byte.isIdentifier := by
  rw [h.bytes_name, ← h.nameBytes_eq, h.nameBytes_eq_takeWhile, h.first_eq, Cursor.rest_atOffset]

theorem isAlphanum_of_mem_name (h : x.FoundAt mode bs o) {c : Char} (hc : c ∈ x.name.toList) :
    c.isAlphanum ∨ c = '_' := by
  rw [name, asciiText, String.toList_ofList, h.nameBytes_eq_takeWhile] at hc
  obtain ⟨b, hb, rfl⟩ := List.mem_map.1 hc
  exact isAlphanum_of_isIdentifier (List.mem_takeWhile_imp hb)

end Signature.FoundAt

/-! ## Main theorem -/

section
variable {text : String} (h : (textLines (bytes text)).length < 2 ^ 32 - 1)
include h

theorem lineCount_lt_of_textLines : (LineIndex.ofBytes (bytes text)).lineCount < 2 ^ 32 := by
  have := count_newline_le_length_textLines (bytes text)
  rw [LineIndex.lineCount_ofBytes]
  omega

theorem accounts_report {options : ScanOptions} {x : Body} (hx : x ∈ bodies text options) :
    (x.report (.ofBytes (bytes text)) options.maxLines).Accounts text options x := by
  obtain ⟨hfound, o, ho⟩ := mem_bodies hx
  obtain ⟨z, hz, hbody⟩ := List.mem_filterMap.1 hx
  obtain ⟨rfl, hopens, hcloses⟩ := Body.of?_eq_some.1 hbody
  have hlast : newlinesBefore (bytes text) x.close < (textLines (bytes text)).length :=
    newlinesBefore_lt_length_textLines hfound.close_at (by decide)
  have hopen : newlinesBefore (bytes text) x.signature.start ≤ newlinesBefore (bytes text) x.brace.offset :=
    newlinesBefore_mono _ (Nat.le_trans (Nat.le_of_lt ho.start_lt_stop) hfound.stop_le)
  have hclose := hfound.newlinesBefore_close
  -- no line number and no line count is too large for its word
  generalize hr : x.report (.ofBytes (bytes text)) options.maxLines = r
  have hline := LineIndex.toNat_lineOf (lineCount_lt_of_textLines h)
  have hsignatureLine : r.signatureLine.toNat = newlinesBefore (bytes text) x.signature.start + 1 := hr ▸ hline _
  have hopenLine := hline x.brace.offset
  have hcloseLine : r.closeLine.toNat = newlinesBefore (bytes text) x.close + 1 := hr ▸ hline _
  have hlineCount : r.lineCount.toNat = x.lineCount := by
    rw [← hr]
    refine UInt64.toNat_ofNat_of_lt' ?_
    rw [UInt64.size]
    omega
  have hanchorLine : r.anchorLine.toNat = r.closeLine.toNat + 1 := by
    rw [show r.anchorLine = r.closeLine + 1 from hr ▸ rfl, UInt32.toNat_add, hcloseLine]
    exact Nat.mod_eq_of_lt (show newlinesBefore (bytes text) x.close + 1 + 1 < 2 ^ 32 by omega)
  have hname : r.name = x.signature.name := hr ▸ rfl
  exact {
    signature_mem := hz
    opens := hopens
    closes := by
      rw [BraceMatch.search_never, hcloses]
      rfl
    open_at := hfound.brace_at
    close_at := hfound.close_at
    signatureLine_eq := hsignatureLine
    openLine_eq := hopenLine
    closeLine_eq := hcloseLine
    signatureLine_pos := by
      rw [UInt32.le_iff_toNat_le, hsignatureLine]
      exact Nat.le_add_left ..
    signatureLine_le := by
      rw [UInt32.le_iff_toNat_le, hsignatureLine, hopenLine]
      exact Nat.succ_le_succ hopen
    openLine_le := by
      rw [UInt32.le_iff_toNat_le, hopenLine, hcloseLine]
      omega
    closeLine_le := by
      rw [hcloseLine]
      exact hlast
    anchorLine_eq := hanchorLine
    lineCount_add := by
      rw [hlineCount, hopenLine, hcloseLine]
      omega
    lineCount_le := by
      rw [hlineCount, hsignatureLine, hcloseLine]
      omega
    severity_iff := hr ▸ Severity.classify_eq_warning
    name_eq := hname ▸ ho.bytes_name_eq_takeWhile
    name_chars := fun c hc => ho.isAlphanum_of_mem_name (hname ▸ hc)
    name_ne_empty := hname ▸ ho.name_ne_empty }

/-- The reports of a scan are those on its bodies, in order, and each is right about its body. -/
theorem scan_accounts (options : ScanOptions) :
    List.Forall₂ (fun r x => r.Accounts text options x) (scan text options) (bodies text options) := by
  rw [scan_eq, bodyReports, List.forall₂_map_left_iff, List.forall₂_same]
  exact fun x hx => accounts_report h hx

end

theorem scan_accounts_two_functions :
    (textLines (bytes "f()\n\x7b\r\n x\n\x7d g()\n\x7b\x7d")).length < 2 ^ 32 - 1 ∧
      scan "f()\n\x7b\r\n x\n\x7d g()\n\x7b\x7d" {} =
        [⟨"f", 1, 4, 5, 1, .neutral⟩, ⟨"g", 4, 5, 6, 0, .neutral⟩] ∧
      List.Forall₂ (fun r x => FunctionReport.Accounts r "f()\n\x7b\r\n x\n\x7d g()\n\x7b\x7d" {} x)
        (scan "f()\n\x7b\r\n x\n\x7d g()\n\x7b\x7d" {}) (bodies "f()\n\x7b\r\n x\n\x7d g()\n\x7b\x7d" {}) := by
  have h : (textLines (bytes "f()\n\x7b\r\n x\n\x7d g()\n\x7b\x7d")).length < 2 ^ 32 - 1 := by decide
  exact ⟨h, by decide +kernel, scan_accounts h {}⟩

end BodyLength
