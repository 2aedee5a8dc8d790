import BodyLength.Proofs.Brackets.Surroundings
import BodyLength.Proofs.Scan.Openings
import BodyLength.Proofs.Scan.Places
/-!
# Scanning one text behind another

A text that ends with a closing brace on its line is `Sealed`. If no parameter list and no body of it
is still open at its end, what a scan finds in it does not change when another text follows, and what
it finds in that one only moves down (`scan_append`).

The search for signatures is compared by where it looks (`openings_followedBy`). The seal keeps every
search that starts in the first text from running into the second: an identifier, blanks before a
brace and the look-ahead of the lexer all end at the brace or at the newline behind it.
-/

namespace BodyLength

/-- The bytes end with a closing brace and a newline. -/
def Sealed (l : List UInt8) : Prop := [Byte.rightBrace, Byte.newline] <:+ l

namespace Sealed

variable {l : List UInt8} {b : UInt8} {p : UInt8 → Bool}

theorem mem (h : Sealed l) : Byte.rightBrace ∈ l := h.subset (by decide)

theorem ne_nil (h : Sealed l) : l ≠ [] := List.ne_nil_of_mem h.mem

theorem getLast? (h : Sealed l) : l.getLast?.all (· == Byte.newline) := by
  obtain ⟨u, rfl⟩ := h
  simp

theorem tail (h : Sealed (b :: l)) (hb : b ≠ Byte.rightBrace) : Sealed l := by
  rcases List.suffix_cons_iff.1 h with heq | h
  · exact absurd (List.cons.inj heq).1.symm hb
  · exact h

theorem dropWhile (h : Sealed l) (hp : p Byte.rightBrace = false) : Sealed (l.dropWhile p) := by
  induction l with
  | nil => exact absurd rfl h.ne_nil
  | cons b l ih =>
    by_cases hb : p b
    · rw [List.dropWhile_cons_of_pos hb]
      apply ih (h.tail _)
      rintro rfl
      rw [hp] at hb
      cases hb
    · rwa [List.dropWhile_cons_of_neg hb]

/-- A search that passes over the brace passes over all that is left. -/
theorem dropWhile_eq_nil_or (h : Sealed l) (hp : p Byte.newline) :
    l.dropWhile p = [] ∨ Sealed (l.dropWhile p) := by
  induction l with
  | nil => exact absurd rfl h.ne_nil
  | cons b l ih =>
    by_cases hb : p b
    · rw [List.dropWhile_cons_of_pos hb]
      rcases List.suffix_cons_iff.1 h with heq | h
      · rw [← (List.cons.inj heq).2, List.dropWhile_cons_of_pos hp]
        exact .inl rfl
      · exact ih h
    · rw [List.dropWhile_cons_of_neg hb]
      exact .inr h

theorem drop_succ (h : Sealed l) {n : Nat} (hn : l[n]? = some b) (hb : b ≠ Byte.rightBrace)
    (hb' : b ≠ Byte.newline) : Sealed (l.drop (n + 1)) := by
  induction l generalizing n with
  | nil => cases hn
  | cons a l ih =>
    cases n with
    | zero =>
      cases hn
      exact h.tail hb
    | succ n =>
      rcases List.suffix_cons_iff.1 h with heq | h
      · rw [List.getElem?_cons_succ, ← (List.cons.inj heq).2] at hn
        cases n with
        | zero => exact absurd (Option.some.inj hn).symm hb'
        | succ n => cases hn
      · exact ih h hn

end Sealed

/-! ## Signatures -/

def Opening.followedBy (a : Opening) (t : List UInt8) : Opening := ⟨a.first.followedBy t, a.inside.followedBy t⟩

def Opening.precededBy (a : Opening) (t : List UInt8) : Opening := ⟨a.first.precededBy t, a.inside.precededBy t⟩

namespace Signature

def followedBy (x : Signature) (t : List UInt8) : Signature := ⟨x.first.followedBy t, x.behind.followedBy t⟩

def precededBy (x : Signature) (t : List UInt8) : Signature := ⟨x.first.precededBy t, x.behind.precededBy t⟩

variable {mode : SignatureMode} {c : Cursor} (t : List UInt8)

theorem openings_precededBy (mode : SignatureMode) (c : Cursor) :
    openings mode (c.precededBy t) = (openings mode c).map (·.precededBy t) := by
  have hid (c : Cursor) : identifierFrom (c.precededBy t) = (identifierFrom c).precededBy t :=
    Cursor.skipWhile_precededBy ..
  have hparen (c : Cursor) : (identifierFrom (c.precededBy t)).skipWhile Byte.isIdentifier =
      ((identifierFrom c).skipWhile Byte.isIdentifier).precededBy t := by
    rw [hid, Cursor.skipWhile_precededBy]
  fun_induction openings mode c with
  | case1 c h =>
    rw [openings_of_nil mode (by rw [hid]; exact h), List.map_nil]
  | case2 c b r h paren hp ih =>
    have hne : (identifierFrom (c.precededBy t)).rest ≠ [] := by simp [hid, h]
    rw [openings_of_paren mode hne (by rw [hparen]; exact hp), hparen, Cursor.skip_precededBy,
      SignatureMode.close?_precededBy, hid, List.map_cons, ← ih]
    congr 2
    exact Option.getD_map (Cursor.precededBy · t) _ _
  | case3 c b r h paren hp ih =>
    have hne : (identifierFrom (c.precededBy t)).rest ≠ [] := by simp [hid, h]
    rw [openings_of_not_paren mode hne (by rw [hparen]; exact hp), hparen]
    exact ih

theorem sealed_close?_getD (h : Sealed c.rest) : Sealed ((mode.close? c).getD c).rest := by
  cases hc : mode.close? c with
  | none => exact h
  | some behind =>
    obtain ⟨n, rfl, hn⟩ := SignatureMode.exists_skip_of_close? hc
    rw [Option.getD_some, Cursor.rest_skip]
    exact h.drop_succ hn (by decide) (by decide)

theorem toEnd_close?_getD : ((mode.close? c).getD c).toEnd = c.toEnd := by
  cases hc : mode.close? c with
  | none => rfl
  | some behind =>
    obtain ⟨n, rfl, hn⟩ := SignatureMode.exists_skip_of_close? hc
    obtain ⟨hlt, -⟩ := List.getElem?_eq_some_iff.1 hn
    exact Cursor.toEnd_skip hlt

/-- The first identifier of a sealed text does not depend on what follows. -/
theorem identifier_followedBy (hc : Sealed c.rest) (hne : (identifierFrom c).rest ≠ []) :
    identifierFrom (c.followedBy t) = (identifierFrom c).followedBy t ∧
      (identifierFrom (c.followedBy t)).skipWhile Byte.isIdentifier =
        ((identifierFrom c).skipWhile Byte.isIdentifier).followedBy t ∧
      Sealed ((identifierFrom c).skipWhile Byte.isIdentifier).rest ∧
      ((identifierFrom c).skipWhile Byte.isIdentifier).toEnd = c.toEnd := by
  have hsealed : Sealed (identifierFrom c).rest := by
    rw [identifierFrom, Cursor.rest_skipWhile] at hne ⊢
    exact (hc.dropWhile_eq_nil_or (by decide)).resolve_left hne
  obtain ⟨b, r, hr⟩ := List.exists_cons_of_ne_nil hne
  have hb : (!Byte.isIdentifier b) = false := by
    have := List.head?_dropWhile_not (fun b => !Byte.isIdentifier b) c.rest
    rw [← Cursor.rest_skipWhile, ← identifierFrom, hr] at this
    simpa using this
  have hmem : b ∈ c.rest := by
    have hsub := List.dropWhile_sublist (fun b => !Byte.isIdentifier b) (l := c.rest)
    rw [← Cursor.rest_skipWhile, ← identifierFrom, hr] at hsub
    exact hsub.subset List.mem_cons_self
  have hid : identifierFrom (c.followedBy t) = (identifierFrom c).followedBy t :=
    Cursor.skipWhile_followedBy t hmem hb
  refine ⟨hid, ?_, ?_, ?_⟩
  · rw [hid]
    exact Cursor.skipWhile_followedBy t hsealed.mem (by decide)
  · rw [Cursor.rest_skipWhile]
    exact hsealed.dropWhile (by decide)
  · rw [Cursor.toEnd_skipWhile, identifierFrom, Cursor.toEnd_skipWhile]

/-- The openings in two texts, the first of them sealed and without a list open at its end. -/
theorem openings_followedBy (hc : Sealed c.rest) (hs : ∀ a ∈ openings mode c, mode.Settles a.inside) :
    openings mode (c.followedBy t) =
        (openings mode c).map (·.followedBy t) ++ openings mode (c.toEnd.followedBy t) ∧
      ∀ a ∈ openings mode c, Sealed a.inside.rest := by
  fun_induction openings mode c with
  | case1 c h =>
    refine ⟨openings_congr mode (Cursor.skipWhile_followedBy_of_all t ?_), by simp⟩
    rw [identifierFrom, Cursor.rest_skipWhile] at h
    intro b hb
    rw [← List.takeWhile_append_dropWhile (p := (!Byte.isIdentifier ·)) (l := c.rest), h, List.append_nil] at hb
    exact List.all_eq_true.1 List.all_takeWhile b hb
  | case2 c b r h paren hp ih =>
    have hne : (identifierFrom c).rest ≠ [] := by simp [h]
    obtain ⟨hid, hparen, hsealed, hend⟩ := identifier_followedBy t hc hne
    have hne' : (identifierFrom (c.followedBy t)).rest ≠ [] := by simp [hid, h]
    have hinside : Sealed (paren.skip 1).rest := by
      obtain ⟨r', hr'⟩ := List.head?_eq_some_iff.1 hp
      rw [Cursor.rest_skip, hr', List.drop_one, List.tail_cons]
      rw [hr'] at hsealed
      exact hsealed.tail (by decide)
    have hone : 1 ≤ paren.rest.length := List.length_pos_iff.2 hsealed.ne_nil
    obtain ⟨ih, ihsealed⟩ := ih (sealed_close?_getD hinside) fun a ha => hs a (List.mem_cons_of_mem _ ha)
    rw [toEnd_close?_getD, Cursor.toEnd_skip hone, hend] at ih
    constructor
    · rw [openings_of_paren mode hne' (by rw [hparen, Cursor.here?_followedBy t hsealed.ne_nil]; exact hp), hparen,
        Cursor.skip_followedBy t hone, mode.close?_followedBy t hinside.getLast? (hs _ List.mem_cons_self), hid,
        Option.getD_map, ih, List.map_cons, List.cons_append]
      rfl
    · intro a ha
      rcases List.mem_cons.1 ha with rfl | ha
      · exact hinside
      · exact ihsealed a ha
  | case3 c b r h paren hp ih =>
    have hne : (identifierFrom c).rest ≠ [] := by simp [h]
    obtain ⟨hid, hparen, hsealed, hend⟩ := identifier_followedBy t hc hne
    have hne' : (identifierFrom (c.followedBy t)).rest ≠ [] := by simp [hid, h]
    rw [openings_of_not_paren mode hne' (by rw [hparen, Cursor.here?_followedBy t hsealed.ne_nil]; exact hp), hparen,
      ← hend]
    exact ih hsealed hs

end Signature

theorem Opening.signature?_precededBy (mode : SignatureMode) (a : Opening) (t : List UInt8) :
    (a.precededBy t).signature? mode = (a.signature? mode).map (·.precededBy t) := by
  rw [signature?, precededBy, mode.close?_precededBy, signature?, Option.map_map, Option.map_map]
  rfl

theorem Opening.signature?_followedBy {mode : SignatureMode} {a : Opening} (t : List UInt8) (h : Sealed a.inside.rest)
    (hs : mode.Settles a.inside) : (a.followedBy t).signature? mode = (a.signature? mode).map (·.followedBy t) := by
  rw [signature?, followedBy, mode.close?_followedBy t h.getLast? hs, signature?, Option.map_map, Option.map_map]
  rfl

theorem Opening.sealed_behind {mode : SignatureMode} {a : Opening} {x : Signature} (h : Sealed a.inside.rest)
    (hx : a.signature? mode = some x) : Sealed x.behind.rest := by
  obtain ⟨behind, hb, rfl⟩ := Option.map_eq_some_iff.1 hx
  have : Sealed ((mode.close? a.inside).getD a.inside).rest := Signature.sealed_close?_getD h
  rwa [hb] at this

section
variable {mode : SignatureMode} {t₁ t₂ : String}

theorem signatures_append (hseal : Sealed (bytes t₁))
    (hlists : ∀ a ∈ Signature.openings mode (.start (bytes t₁)), mode.Settles a.inside) :
    signatures mode (t₁ ++ t₂) = (signatures mode t₁).map (·.followedBy (bytes t₂)) ++
      (signatures mode t₂).map (·.precededBy (bytes t₁)) := by
  have hfirst : Cursor.start (bytes (t₁ ++ t₂)) = (Cursor.start (bytes t₁)).followedBy (bytes t₂) := by
    rw [bytes_append]
    rfl
  obtain ⟨hopenings, hinside⟩ := Signature.openings_followedBy (bytes t₂) (c := .start (bytes t₁)) hseal hlists
  rw [signatures_eq, signatures_eq, signatures_eq, hfirst, hopenings, Cursor.toEnd_start_followedBy,
    Signature.openings_precededBy, List.filterMap_append, List.filterMap_map, List.filterMap_map, List.map_filterMap, List.map_filterMap]
  congr 1
  · apply List.filterMap_congr
    intro a ha
    exact Opening.signature?_followedBy _ (hinside a ha) (hlists a ha)
  · apply List.filterMap_congr
    intro a _
    exact Opening.signature?_precededBy mode a _

/-- Behind each parameter list of a sealed text the seal is still to come. -/
theorem sealed_of_mem_signatures (hseal : Sealed (bytes t₁))
    (hlists : ∀ a ∈ Signature.openings mode (.start (bytes t₁)), mode.Settles a.inside) {x : Signature}
    (hx : x ∈ signatures mode t₁) : Sealed x.behind.rest := by
  rw [signatures_eq] at hx
  obtain ⟨a, ha, hx⟩ := List.mem_filterMap.1 hx
  have hinside := (Signature.openings_followedBy [] (c := .start (bytes t₁)) hseal hlists).2 a ha
  exact Opening.sealed_behind hinside hx

end

/-! ## Bodies -/

namespace BracePlacement

variable (placement : BracePlacement) {c : Cursor} (t : List UInt8)

theorem locate?_precededBy (c : Cursor) :
    placement.locate? (c.precededBy t) = (placement.locate? c).map (·.precededBy t) := by
  cases placement with
  | nextLine =>
    simp only [locate?, Cursor.skip_precededBy, Cursor.here?_precededBy]
    split <;> rfl
  | lenient =>
    simp only [locate?, Cursor.skipWhile_precededBy, Cursor.skip_precededBy, Cursor.here?_precededBy]
    by_cases hn : (c.skipWhile Byte.isBlank).here? = some Byte.newline
    · simp only [if_pos hn, Cursor.here?_precededBy]
      split <;> rfl
    · simp only [if_neg hn, Cursor.here?_precededBy]
      split <;> rfl

/-- In a sealed text, looking for a brace ends before the seal. -/
theorem locate?_followedBy (h : Sealed c.rest) :
    placement.locate? (c.followedBy t) = (placement.locate? c).map (·.followedBy t) ∧
      ∀ brace, placement.locate? c = some brace → Sealed brace.rest := by
  have hskip {c : Cursor} (h : Sealed c.rest) (hn : c.here? = some Byte.newline) :
      (c.followedBy t).skip 1 = (c.skip 1).followedBy t ∧ Sealed (c.skip 1).rest := by
    refine ⟨Cursor.skip_followedBy t (List.length_pos_iff.2 h.ne_nil), ?_⟩
    obtain ⟨r, hr⟩ := List.head?_eq_some_iff.1 hn
    rw [Cursor.rest_skip, hr, List.drop_one, List.tail_cons]
    rw [hr] at h
    exact h.tail (by decide)
  have hblank {c : Cursor} (h : Sealed c.rest) :
      (c.followedBy t).skipWhile Byte.isBlank = (c.skipWhile Byte.isBlank).followedBy t ∧
        Sealed (c.skipWhile Byte.isBlank).rest := by
    refine ⟨Cursor.skipWhile_followedBy t h.mem (by decide), ?_⟩
    rw [Cursor.rest_skipWhile]
    exact h.dropWhile (by decide)
  have hhere {c : Cursor} (h : Sealed c.rest) : (c.followedBy t).here? = c.here? := Cursor.here?_followedBy t h.ne_nil
  cases placement with
  | nextLine =>
    rw [locate?, locate?, hhere h]
    by_cases hn : c.here? = some Byte.newline
    · obtain ⟨heq, hs⟩ := hskip h hn
      rw [heq, hhere hs]
      split
      · exact ⟨rfl, by rintro brace ⟨⟩; exact hs⟩
      · exact ⟨rfl, by rintro brace ⟨⟩⟩
    · simp [hn]
  | lenient =>
    obtain ⟨heq, hs⟩ := hblank h
    simp only [locate?, heq, hhere hs]
    by_cases hn : (c.skipWhile Byte.isBlank).here? = some Byte.newline
    · obtain ⟨heq', hs'⟩ := hskip hs hn
      obtain ⟨heq'', hs''⟩ := hblank hs'
      simp only [if_pos hn, heq', heq'', hhere hs'']
      split
      · exact ⟨rfl, by rintro brace ⟨⟩; exact hs''⟩
      · exact ⟨rfl, by rintro brace ⟨⟩⟩
    · simp only [if_neg hn, hhere hs]
      split
      · exact ⟨rfl, by rintro brace ⟨⟩; exact hs⟩
      · exact ⟨rfl, by rintro brace ⟨⟩⟩

end BracePlacement

namespace Body

def followedBy (y : Body) (t : List UInt8) : Body := ⟨y.signature.followedBy t, y.brace.followedBy t, y.close⟩

def precededBy (y : Body) (t : List UInt8) : Body :=
  ⟨y.signature.precededBy t, y.brace.precededBy t, t.length + y.close⟩

theorem of?_precededBy (placement : BracePlacement) (x : Signature) (t : List UInt8) :
    of? placement (x.precededBy t) = (of? placement x).map (·.precededBy t) := by
  rw [of?_start, of?_start, Signature.precededBy, placement.locate?_precededBy]
  cases placement.locate? x.behind with
  | none => rfl
  | some brace =>
    simp only [Option.map_some, Option.bind_some, Cursor.skip_precededBy, Cursor.rest_precededBy,
      Cursor.offset_precededBy, Option.map_map]
    refine Option.map_congr ?_
    intro p _
    have hclose : p + (t.length + brace.offset + 1) = t.length + (p + (brace.offset + 1)) := by omega
    rw [hclose]
    rfl

/-- A body that closes in a sealed text is the same whatever follows. -/
theorem of?_followedBy {placement : BracePlacement} {x : Signature} (t : List UInt8) (h : Sealed x.behind.rest)
    (hclosed : ∀ brace, placement.locate? x.behind = some brace →
      (BraceMatch.search .never 0 brace).1 ≠ .unbalanced) :
    of? placement (x.followedBy t) = (of? placement x).map (·.followedBy t) := by
  obtain ⟨hlocate, hsealed⟩ := placement.locate?_followedBy t h
  rw [of?, of?, Signature.followedBy, hlocate]
  cases hb : placement.locate? x.behind with
  | none => rfl
  | some brace =>
    have hs := hsealed brace hb
    have hone : 1 ≤ brace.rest.length := List.length_pos_iff.2 hs.ne_nil
    have hlast : (brace.skip 1).rest.getLast?.all (· == Byte.newline) := by
      rw [Cursor.rest_skip, List.getLast?_drop]
      split
      · rfl
      · exact hs.getLast?
    obtain ⟨l, hl⟩ := LexState.plain.exists_code_followedBy (brace.skip 1) t hlast
    have hfound := hclosed brace hb
    rw [BraceMatch.search_never] at hfound
    obtain ⟨p, hp⟩ : ∃ p, Brackets.braces.closing 0 (LexState.plain.code (brace.skip 1)) = some p := by
      cases hc : Brackets.braces.closing 0 (LexState.plain.code (brace.skip 1)) with
      | some p => exact ⟨p, rfl⟩
      | none =>
        rw [hc] at hfound
        exact absurd rfl hfound
    simp only [Option.map_some, Option.bind_some, Cursor.skip_followedBy t hone, hl,
      Brackets.closing_append_of_settles (Brackets.settles_of_closing hp), hp]
    rfl

end Body

section
variable {t₁ t₂ : String} {options : ScanOptions} (hseal : Sealed (bytes t₁))
  (hlists : ∀ a ∈ Signature.openings options.signatureMode (.start (bytes t₁)), options.signatureMode.Settles a.inside)
  (hbodies : ∀ x ∈ signatures options.signatureMode t₁, ∀ brace,
    options.bracePlacement.locate? x.behind = some brace → (BraceMatch.search .never 0 brace).1 ≠ .unbalanced)
include hseal hlists hbodies

theorem bodies_append : bodies (t₁ ++ t₂) options =
    (bodies t₁ options).map (·.followedBy (bytes t₂)) ++ (bodies t₂ options).map (·.precededBy (bytes t₁)) := by
  rw [bodies, bodies, bodies, signatures_append hseal hlists, List.filterMap_append, List.filterMap_map,
    List.filterMap_map, List.map_filterMap, List.map_filterMap]
  congr 1
  · apply List.filterMap_congr
    intro x hx
    exact Body.of?_followedBy _ (sealed_of_mem_signatures hseal hlists hx) (hbodies x hx)
  · apply List.filterMap_congr
    intro x _
    exact Body.of?_precededBy options.bracePlacement x _

end

/-! ## Reports -/

/-- The report on the same function `n` lines further down. -/
def FunctionReport.moveDown (n : Nat) (r : FunctionReport) : FunctionReport :=
  { r with
    signatureLine := r.signatureLine + n.toUInt32
    closeLine := r.closeLine + n.toUInt32
    anchorLine := r.anchorLine + n.toUInt32 }

namespace LineIndex

theorem lineOf_append_left {bs : List UInt8} {o : Nat} (h : o ≤ bs.length) (t : List UInt8) :
    (ofBytes (bs ++ t)).lineOf o = (ofBytes bs).lineOf o := by
  rw [lineOf_eq, lineOf_eq, newlinesBefore_append_left h]

theorem lineOf_append_right (bs t : List UInt8) (o : Nat) : (ofBytes (t ++ bs)).lineOf (t.length + o) =
    (ofBytes bs).lineOf o + (t.count Byte.newline).toUInt32 := by
  rw [lineOf_eq, lineOf_eq, newlinesBefore_append_right, Nat.add_assoc, Nat.add_comm]
  exact UInt32.ofNat_add ..

end LineIndex

namespace Body

variable {y : Body} {mode : SignatureMode} {bs : List UInt8} {o o' : Nat} (t : List UInt8)

theorem report_followedBy (hx : y.signature.FoundAt mode bs o) (hy : y.FoundIn bs)
    (hx' : (y.followedBy t).signature.FoundAt mode (bs ++ t) o') (hy' : (y.followedBy t).FoundIn (bs ++ t))
    (maxLines : UInt64) :
    (y.followedBy t).report (.ofBytes (bs ++ t)) maxLines = y.report (.ofBytes bs) maxLines := by
  have hname : (y.followedBy t).signature.name = y.signature.name := by
    rw [Signature.name, Signature.name, hx'.nameBytes_eq_takeWhile, hx.nameBytes_eq_takeWhile]
    exact congrArg asciiText (takeWhile_append_of_mem hx.leftParen_mem (by decide) t)
  have hclose := hy.close_lt
  have hlt := hy.brace_lt
  have hfrom : linesFrom (bs ++ t) y.brace.offset = linesFrom bs y.brace.offset := by
    rw [linesFrom, linesFrom, List.getElem?_append_left (by omega)]
  have hcount : (y.followedBy t).lineCount = y.lineCount := by
    rw [hy'.lineCount_eq, hy.lineCount_eq]
    show ((bs ++ t).drop (linesFrom (bs ++ t) y.brace.offset)).count Byte.newline -
      ((bs ++ t).drop y.close).count Byte.newline = _
    rw [hfrom, List.drop_append_of_le_length hy.linesFrom_le, List.drop_append_of_le_length (Nat.le_of_lt hclose),
      List.count_append, List.count_append, Nat.add_sub_add_right]
  have hstart := LineIndex.lineOf_append_left (Nat.le_of_lt hx.start_lt_length) t
  have hline := LineIndex.lineOf_append_left (Nat.le_of_lt hclose) t
  rw [report, report, hname, hcount]
  simp only [followedBy, Signature.followedBy, Signature.start, Cursor.offset_followedBy] at hstart ⊢
  rw [hstart, hline]

theorem report_precededBy (hx : y.signature.FoundAt mode bs o) (hy : y.FoundIn bs)
    (hx' : (y.precededBy t).signature.FoundAt mode (t ++ bs) o') (hy' : (y.precededBy t).FoundIn (t ++ bs))
    (maxLines : UInt64) : (y.precededBy t).report (.ofBytes (t ++ bs)) maxLines =
      (y.report (.ofBytes bs) maxLines).moveDown (t.count Byte.newline) := by
  have hname : (y.precededBy t).signature.name = y.signature.name := by
    rw [Signature.name, Signature.name, hx'.nameBytes_eq_takeWhile, hx.nameBytes_eq_takeWhile]
    rfl
  have hdrop (n : Nat) : (t ++ bs).drop (t.length + n) = bs.drop n := List.drop_length_add_append ..
  have hfrom : linesFrom (t ++ bs) (t.length + y.brace.offset) = t.length + linesFrom bs y.brace.offset := by
    have hnext : (t ++ bs)[t.length + y.brace.offset + 1]? = bs[y.brace.offset + 1]? := by
      rw [Nat.add_assoc, List.getElem?_append_right (Nat.le_add_right _ _), Nat.add_sub_cancel_left]
    rw [linesFrom, linesFrom, hnext, Nat.add_assoc]
  have hcount : (y.precededBy t).lineCount = y.lineCount := by
    rw [hy'.lineCount_eq, hy.lineCount_eq]
    show ((t ++ bs).drop (linesFrom (t ++ bs) (t.length + y.brace.offset))).count Byte.newline -
      ((t ++ bs).drop (t.length + y.close)).count Byte.newline = _
    rw [hfrom, hdrop, hdrop]
  have hstart := LineIndex.lineOf_append_right bs t y.signature.start
  have hline := LineIndex.lineOf_append_right bs t y.close
  rw [report, report, hname, hcount]
  simp only [precededBy, Signature.precededBy, Signature.start, Cursor.offset_precededBy,
    FunctionReport.moveDown] at hstart ⊢
  rw [hstart, hline, UInt32.add_assoc, UInt32.add_comm _ 1, ← UInt32.add_assoc]

end Body

theorem toNat_add_of_lt {a : UInt32} {n : Nat} (h : a.toNat + n < 2 ^ 32) :
    (a + n.toUInt32).toNat = a.toNat + n := by
  rw [UInt32.toNat_add, Nat.toUInt32, UInt32.toNat_ofNat']
  omega

/-- Lines that move down within a text that is not too long keep their numbers apart. -/
theorem FunctionReport.toNat_moveDown {t : String} {options : ScanOptions} {n : Nat} {r : FunctionReport}
    (hr : r ∈ scan t options) (hn : n + (bytes t).count Byte.newline + 2 < 2 ^ 32) :
    (r.moveDown n).signatureLine.toNat = r.signatureLine.toNat + n ∧
      (r.moveDown n).closeLine.toNat = r.closeLine.toNat + n ∧
      (r.moveDown n).anchorLine.toNat = r.anchorLine.toNat + n := by
  have hline (o : Nat) : ((LineIndex.ofBytes (bytes t)).lineOf o).toNat ≤ (bytes t).count Byte.newline + 1 := by
    have hle := newlinesBefore_le (bytes t) o
    rw [LineIndex.lineOf_eq, Nat.toUInt32, UInt32.toNat_ofNat']
    omega
  rw [scan_eq, bodyReports, List.mem_map] at hr
  obtain ⟨y, -, rfl⟩ := hr
  have hstart := hline y.signature.start
  have hclose := hline y.close
  refine ⟨toNat_add_of_lt ?_, toNat_add_of_lt ?_, toNat_add_of_lt ?_⟩
  · simp only [Body.report]
    omega
  · simp only [Body.report]
    omega
  · simp only [Body.report]
    rw [UInt32.toNat_add, UInt32.toNat_one]
    omega

/-- The reports on two texts in a row, by their bodies. -/
theorem bodyReports_append {t₁ t₂ : String} {options : ScanOptions}
    (happend : bodies (t₁ ++ t₂) options = (bodies t₁ options).map (·.followedBy (bytes t₂)) ++
      (bodies t₂ options).map (·.precededBy (bytes t₁))) :
    bodyReports (t₁ ++ t₂) options =
      bodyReports t₁ options ++ (bodyReports t₂ options).map (·.moveDown ((bytes t₁).count Byte.newline)) := by
  -- a function that is found in one of the texts is found in both together
  have hmem {y : Body} (hy : y ∈ (bodies t₁ options).map (·.followedBy (bytes t₂)) ++
      (bodies t₂ options).map (·.precededBy (bytes t₁))) := mem_bodies (happend ▸ hy)
  rw [bytes_append] at hmem
  rw [bodyReports, bodyReports, bodyReports, happend, bytes_append, List.map_append, List.map_map, List.map_map,
    List.map_map]
  congr 1
  · apply List.map_congr_left
    intro y hy
    obtain ⟨hin, o, ho⟩ := mem_bodies hy
    obtain ⟨hin', o', ho'⟩ := hmem (List.mem_append_left _ (List.mem_map_of_mem hy))
    exact Body.report_followedBy _ ho hin ho' hin' _
  · apply List.map_congr_left
    intro y hy
    obtain ⟨hin, o, ho⟩ := mem_bodies hy
    obtain ⟨hin', o', ho'⟩ := hmem (List.mem_append_right _ (List.mem_map_of_mem hy))
    exact Body.report_precededBy _ ho hin ho' hin' _

/-! ## Main theorem -/

/-- The reports on two texts in a row are those on the first and, below them, those on the second, if
the first ends with a closing brace on its line and neither a parameter list nor a body is open there. -/
theorem scan_append {t₁ t₂ : String} {options : ScanOptions} (hend : ∃ u, t₁ = u ++ "\x7d\n")
    (hlists : ∀ a ∈ Signature.openings options.signatureMode (.start (bytes t₁)),
      options.signatureMode.Settles a.inside)
    (hbodies : ∀ x ∈ signatures options.signatureMode t₁, ∀ brace,
      options.bracePlacement.locate? x.behind = some brace → (BraceMatch.search .never 0 brace).1 ≠ .unbalanced) :
    scan (t₁ ++ t₂) options =
        scan t₁ options ++ (scan t₂ options).map (·.moveDown ((bytes t₁).count Byte.newline)) ∧
      ((LineIndex.ofBytes (bytes (t₁ ++ t₂))).lineCount < 2 ^ 32 - 1 → ∀ r ∈ scan t₂ options,
        (r.moveDown ((bytes t₁).count Byte.newline)).signatureLine.toNat =
            r.signatureLine.toNat + (bytes t₁).count Byte.newline ∧
          (r.moveDown ((bytes t₁).count Byte.newline)).closeLine.toNat =
            r.closeLine.toNat + (bytes t₁).count Byte.newline ∧
          (r.moveDown ((bytes t₁).count Byte.newline)).anchorLine.toNat =
            r.anchorLine.toNat + (bytes t₁).count Byte.newline) := by
  have hseal : Sealed (bytes t₁) := by
    obtain ⟨u, rfl⟩ := hend
    rw [bytes_append]
    exact ⟨bytes u, rfl⟩
  constructor
  · rw [scan_eq, scan_eq, scan_eq]
    exact bodyReports_append (bodies_append hseal hlists hbodies)
  · intro hlines r hr
    apply FunctionReport.toNat_moveDown hr
    rw [LineIndex.lineCount_ofBytes, bytes_append, List.count_append] at hlines
    omega

theorem scan_append_two_functions :
    (∃ u, "a(;f()\n\x7b\"\x7d\"\n\x7d\n" = u ++ "\x7d\n") ∧
    (∀ a ∈ Signature.openings .baseline (.start (bytes "a(;f()\n\x7b\"\x7d\"\n\x7d\n")),
      SignatureMode.baseline.Settles a.inside) ∧
    (∀ x ∈ signatures .baseline "a(;f()\n\x7b\"\x7d\"\n\x7d\n", ∀ brace,
      BracePlacement.nextLine.locate? x.behind = some brace → (BraceMatch.search .never 0 brace).1 ≠ .unbalanced) ∧
    scan ("a(;f()\n\x7b\"\x7d\"\n\x7d\n" ++ "g()\n\x7b\x7d") {} =
      scan "a(;f()\n\x7b\"\x7d\"\n\x7d\n" {} ++ (scan "g()\n\x7b\x7d" {}).map
        (·.moveDown ((bytes "a(;f()\n\x7b\"\x7d\"\n\x7d\n").count Byte.newline)) := by
  have hend : ∃ u, "a(;f()\n\x7b\"\x7d\"\n\x7d\n" = u ++ "\x7d\n" := ⟨"a(;f()\n\x7b\"\x7d\"\n", rfl⟩
  have hlists : ∀ a ∈ Signature.openings .baseline (.start (bytes "a(;f()\n\x7b\"\x7d\"\n\x7d\n")),
      SignatureMode.baseline.Settles a.inside := by
    decide +kernel
  have hbodies : ∀ x ∈ signatures .baseline "a(;f()\n\x7b\"\x7d\"\n\x7d\n", ∀ brace,
      BracePlacement.nextLine.locate? x.behind = some brace →
        (BraceMatch.search .never 0 brace).1 ≠ .unbalanced := by
    decide +kernel
  exact ⟨hend, hlists, hbodies, (@scan_append _ _ {} hend hlists hbodies).1⟩

end BodyLength
