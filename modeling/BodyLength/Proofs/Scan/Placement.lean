import BodyLength.Proofs.Scan.Places
/-!
# Opening braces on the next line

Where a newline and an opening brace stand right behind a signature, that brace opens the body under both
placements (`locate?_of_below`). No other brace does so if it has to stand on the next line, so the bodies
of such a scan are those of a lenient one, less the ones whose braces stand elsewhere (`bodies_nextLine`).
-/

namespace BodyLength

/-- A newline and an opening brace. -/
def braceBelow : List UInt8 := [Byte.newline, Byte.leftBrace]

namespace BracePlacement

variable {c : Cursor}

/-- A newline alone is something that both placements allow. -/
theorem locate?_of_below (placement : BracePlacement) (h : braceBelow <+: c.rest) :
    placement.locate? c = some (c.skip 1) := by
  obtain ⟨t, ht⟩ := h
  have hgap : [Byte.newline] ∈ placement.gap.matches' := by
    cases placement with
    | nextLine => exact mem_gap_nextLine_iff.2 rfl
    | lenient => exact mem_gap_lenient_iff.2 ⟨[], by simp, .inr ⟨[], by simp, rfl⟩⟩
  exact locate?_of_gap ht.symm hgap

/-- The placements only differ in what they take behind other bytes. -/
theorem locate?_nextLine_iff {d : Cursor} :
    nextLine.locate? c = some d ↔ lenient.locate? c = some d ∧ braceBelow <+: c.rest := by
  constructor
  · intro h
    obtain ⟨w, r, hrest, hw, -⟩ := gap_of_locate? h
    obtain rfl := mem_gap_nextLine_iff.1 hw
    have hbelow : braceBelow <+: c.rest := ⟨r, hrest.symm⟩
    rw [locate?_of_below nextLine hbelow] at h
    exact ⟨(locate?_of_below lenient hbelow).trans h, hbelow⟩
  · rintro ⟨h, hbelow⟩
    rw [locate?_of_below lenient hbelow] at h
    exact (locate?_of_below nextLine hbelow).trans h

end BracePlacement

/-! ## Bodies -/

theorem Body.of?_nextLine (x : Signature) :
    of? .nextLine x = (of? .lenient x).filter fun y => braceBelow <+: y.signature.behind.rest := by
  ext y
  rw [Option.filter_eq_some_iff, of?_eq_some, of?_eq_some, decide_eq_true_eq, BracePlacement.locate?_nextLine_iff]
  constructor
  · rintro ⟨rfl, ⟨hbrace, hbelow⟩, hclose⟩
    exact ⟨⟨rfl, hbrace, hclose⟩, hbelow⟩
  · rintro ⟨⟨rfl, hbrace, hclose⟩, hbelow⟩
    exact ⟨rfl, ⟨hbrace, hbelow⟩, hclose⟩

/-- The bodies with a brace on the next line. -/
theorem bodies_nextLine (text : String) (maxLines : UInt64) (mode : SignatureMode) :
    bodies text ⟨maxLines, .nextLine, mode⟩ = (bodies text ⟨maxLines, .lenient, mode⟩).filter fun y =>
      braceBelow <+: (bytes text).drop y.signature.stop := by
  have hrest : ∀ y ∈ bodies text ⟨maxLines, .lenient, mode⟩,
      y.signature.behind.rest = (bytes text).drop y.signature.stop := by
    intro y hy
    obtain ⟨-, o, ho⟩ := mem_bodies hy
    rw [ho.behind_eq, Cursor.rest_atOffset]
  calc bodies text ⟨maxLines, .nextLine, mode⟩
      = (bodies text ⟨maxLines, .lenient, mode⟩).filter fun y => braceBelow <+: y.signature.behind.rest := by
        rw [bodies, bodies, List.filter_filterMap, funext Body.of?_nextLine]
    _ = _ := List.filter_congr fun y hy => by rw [hrest y hy]

/-! ## Main theorem -/

/-- A scan for braces on the next line reports on those bodies of a lenient scan whose signature is
followed by a newline and an opening brace, in the same order and with the same reports. -/
theorem scan_nextLine_of_lenient (text : String) (maxLines : UInt64) (mode : SignatureMode) :
    let report := Body.report (.ofBytes (bytes text)) maxLines
    let found := bodies text ⟨maxLines, .lenient, mode⟩
    scan text ⟨maxLines, .lenient, mode⟩ = found.map report ∧
      scan text ⟨maxLines, .nextLine, mode⟩ =
        (found.filter fun y => braceBelow <+: (bytes text).drop y.signature.stop).map report ∧
      (scan text ⟨maxLines, .nextLine, mode⟩).Sublist (scan text ⟨maxLines, .lenient, mode⟩) := by
  intro report found
  have hlenient : scan text ⟨maxLines, .lenient, mode⟩ = found.map report := scan_eq text _
  have hnextLine : scan text ⟨maxLines, .nextLine, mode⟩ =
      (found.filter fun y => braceBelow <+: (bytes text).drop y.signature.stop).map report := by
    rw [scan_eq, bodyReports, bodies_nextLine]
  refine ⟨hlenient, hnextLine, ?_⟩
  rw [hlenient, hnextLine]
  exact List.filter_sublist.map report

end BodyLength
