import BodyLength.Proofs.Brackets.LineBreaks
import BodyLength.Proofs.Scan.Openings
import BodyLength.Proofs.Scan.Places
/-!
# Scanning a text with other line breaks

A scan that lets the opening brace stand behind blanks finds the same functions in two texts that
differ in their line breaks. They are compared from the openings of parameter lists on to the bodies
(`bodies_respaced`), at places that correspond. What a report says of lines only counts newlines, and
behind corresponding places there are equally many, except that the count of the lines of a body
begins within the line break behind its opening brace.

`scan_crlf` is the case of line breaks that have a carriage return.
-/

namespace BodyLength

variable {breaks : LineBreak → Prop}

/-! ## Signatures -/

/-- The same parameter list opens at corresponding places. -/
structure Opening.Matches (breaks : LineBreak → Prop) (a a' : Opening) : Prop where
  first : Respaced breaks a.first.rest a'.first.rest
  inside : Respaced breaks a.inside.rest a'.inside.rest

/-- The same signature stands at corresponding places. -/
structure Signature.Matches (breaks : LineBreak → Prop) (x x' : Signature) : Prop where
  first : Respaced breaks x.first.rest x'.first.rest
  behind : Respaced breaks x.behind.rest x'.behind.rest

theorem skipWhile_respaced {c c' : Cursor} {p : UInt8 → Bool} (h : Respaced breaks c.rest c'.rest)
    (hp : ∀ b, Byte.isWhite b → p b = p Byte.newline) :
    Respaced breaks (c.skipWhile p).rest (c'.skipWhile p).rest := by
  rw [Cursor.rest_skipWhile, Cursor.rest_skipWhile]
  exact h.dropWhile hp

namespace Signature

variable (mode : SignatureMode) {c c' : Cursor}

/-- The first identifier and what is behind it. -/
theorem identifier_respaced (h : Respaced breaks c.rest c'.rest) :
    Respaced breaks (identifierFrom c).rest (identifierFrom c').rest ∧
      Respaced breaks ((identifierFrom c).skipWhile Byte.isIdentifier).rest
        ((identifierFrom c').skipWhile Byte.isIdentifier).rest := by
  have hid : Respaced breaks (identifierFrom c).rest (identifierFrom c').rest := by
    apply skipWhile_respaced h
    intro b hb
    rw [Byte.not_isIdentifier_of_isWhite hb]
    rfl
  refine ⟨hid, skipWhile_respaced hid ?_⟩
  intro b hb
  rw [Byte.not_isIdentifier_of_isWhite hb]
  rfl

theorem getD_close?_respaced (h : Respaced breaks c.rest c'.rest) :
    Respaced breaks ((mode.close? c).getD c).rest ((mode.close? c').getD c').rest := by
  have hrel := mode.close?_respaced h
  generalize mode.close? c = x at hrel ⊢
  generalize mode.close? c' = x' at hrel ⊢
  cases hrel with
  | none => exact h
  | some hd => exact hd

theorem openings_respaced (c : Cursor) : ∀ c' : Cursor, Respaced breaks c.rest c'.rest →
    List.Forall₂ (Opening.Matches breaks) (openings mode c) (openings mode c') := by
  fun_induction openings mode c with
  | case1 c hrest =>
    intro c' h
    have hrest' := (identifier_respaced h).1.eq_nil_iff.1 hrest
    rw [openings_of_nil mode hrest']
    exact .nil
  | case2 c b r hrest paren hp ih =>
    intro c' h
    obtain ⟨hid, hparen⟩ := identifier_respaced h
    have hne : (identifierFrom c').rest ≠ [] := mt hid.eq_nil_iff.2 (by simp [hrest])
    have hp' := (hparen.head?_eq_some_iff rfl).1 hp
    have hinside : Respaced breaks (paren.skip 1).rest
        (((identifierFrom c').skipWhile Byte.isIdentifier).skip 1).rest := by
      rw [Cursor.rest_skip, Cursor.rest_skip]
      exact hparen.drop_one hp (by decide)
    rw [openings_of_paren mode hne hp']
    exact .cons ⟨hid, hinside⟩ (ih _ (getD_close?_respaced mode hinside))
  | case3 c b r hrest paren hp ih =>
    intro c' h
    obtain ⟨hid, hparen⟩ := identifier_respaced h
    have hne : (identifierFrom c').rest ≠ [] := mt hid.eq_nil_iff.2 (by simp [hrest])
    have hp' : ((identifierFrom c').skipWhile Byte.isIdentifier).here? ≠ some Byte.leftParen := by
      intro heq
      exact hp ((hparen.head?_eq_some_iff rfl).2 heq)
    rw [openings_of_not_paren mode hne hp']
    exact ih _ hparen

end Signature

theorem signatures_respaced (mode : SignatureMode) {text text' : String} (h : Respaced breaks (bytes text) (bytes text')) :
    List.Forall₂ (Signature.Matches breaks) (signatures mode text) (signatures mode text') := by
  rw [signatures_eq, signatures_eq]
  apply List.rel_filterMap _ (Signature.openings_respaced mode (.start (bytes text)) (.start (bytes text')) h)
  intro a a' ha
  apply rel_map (mode.close?_respaced ha.inside)
  intro d d' hd
  exact ⟨ha.first, hd⟩

/-! ## Bodies -/

/-- The last step of looking for an opening brace. -/
theorem leftBrace_respaced {c c' : Cursor} (h : Respaced breaks c.rest c'.rest) :
    Option.Rel (fun d d' : Cursor => d.here? = some Byte.leftBrace ∧ Respaced breaks d.rest d'.rest)
      (if c.here? = some Byte.leftBrace then some c else none)
      (if c'.here? = some Byte.leftBrace then some c' else none) := by
  have hiff : c.here? = some Byte.leftBrace ↔ c'.here? = some Byte.leftBrace := h.head?_eq_some_iff rfl
  by_cases hb : c.here? = some Byte.leftBrace
  · rw [if_pos hb, if_pos (hiff.1 hb)]
    exact .some ⟨hb, h⟩
  · rw [if_neg hb, if_neg (mt hiff.2 hb)]
    exact .none

/-- Opening braces are found at corresponding places. -/
theorem locate?_respaced {c c' : Cursor} (h : Respaced breaks c.rest c'.rest) :
    Option.Rel (fun d d' => d.here? = some Byte.leftBrace ∧ Respaced breaks d.rest d'.rest)
      (BracePlacement.lenient.locate? c) (BracePlacement.lenient.locate? c') := by
  have hblank (d : Cursor) : (d.skipWhile Byte.isBlank).rest = d.rest.dropWhile Byte.isBlank :=
    Cursor.rest_skipWhile ..
  have hhere (d : Cursor) : (d.skipWhile Byte.isBlank).here? = (d.rest.dropWhile Byte.isBlank).head? :=
    congrArg List.head? (hblank d)
  have hskip {d : Cursor} {r : List UInt8} (hd : d.rest.dropWhile Byte.isBlank = Byte.newline :: r) :
      (((d.skipWhile Byte.isBlank).skip 1).skipWhile Byte.isBlank).rest = r.dropWhile Byte.isBlank := by
    rw [hblank, Cursor.rest_skip, hblank, hd]
    rfl
  have hnewline {d : Cursor} {r : List UInt8} (hd : d.rest = Byte.newline :: r) :
      d.here? ≠ some Byte.leftBrace := by
    simp [Cursor.here?, hd, Byte.newline, Byte.leftBrace]
  unfold BracePlacement.locate?
  simp only [hhere]
  rcases h.dropWhile_isBlank with ⟨r, v, r', hr, hr', hv, hrest⟩ | ⟨hne, hne', hrest⟩
  · rw [hr, hr', if_pos List.head?_cons, if_pos List.head?_cons]
    have hd := hskip hr
    have hd' := hskip hr'
    rw [List.dropWhile_append_of_pos hv] at hd'
    rcases hrest.dropWhile_isBlank with ⟨s, v, s', hs, hs', -, -⟩ | ⟨-, -, hbehind⟩
    · -- a second newline in both texts
      rw [if_neg (hnewline (hd.trans hs)), if_neg (hnewline (hd'.trans hs'))]
      exact .none
    · apply leftBrace_respaced
      rwa [hd, hd']
  · rw [if_neg hne, if_neg hne']
    apply leftBrace_respaced
    rwa [hblank, hblank]

/-- The same body stands at corresponding places. -/
structure Body.Matches (breaks : LineBreak → Prop) (y y' : Body) : Prop where
  signature : y.signature.Matches breaks y'.signature
  brace : Respaced breaks y.brace.rest y'.brace.rest
  close : Respaced breaks (y.brace.rest.drop (y.close - y.brace.offset)) (y'.brace.rest.drop (y'.close - y'.brace.offset))

theorem Body.of?_respaced {x x' : Signature} (h : x.Matches breaks x') :
    Option.Rel (Matches breaks) (of? .lenient x) (of? .lenient x') := by
  have hrel := locate?_respaced h.behind
  rw [of?_start, of?_start]
  generalize BracePlacement.lenient.locate? x.behind = brace at hrel ⊢
  generalize BracePlacement.lenient.locate? x'.behind = brace' at hrel ⊢
  cases hrel with
  | none => exact .none
  | @some c c' hc =>
    obtain ⟨hbrace, hc⟩ := hc
    have hinside : Respaced breaks (c.skip 1).rest (c'.skip 1).rest := by
      rw [Cursor.rest_skip, Cursor.rest_skip]
      exact hc.drop_one hbrace (by decide)
    have hdrop (d : Cursor) (p : Nat) :
        d.rest.drop (p + (d.offset + 1) - d.offset) = (d.skip 1).rest.drop p := by
      rw [Cursor.rest_skip, List.drop_drop]
      congr 1
      omega
    apply rel_map (SignatureMode.literalAware.closing_respaced Brackets.solid_braces hinside)
    intro p p' hp
    refine ⟨h, hc, ?_⟩
    simp only [hdrop]
    exact hp.rest

theorem bodies_respaced {text text' : String} {options : ScanOptions} (hp : options.bracePlacement = .lenient)
    (h : Respaced breaks (bytes text) (bytes text')) :
    List.Forall₂ (Body.Matches breaks) (bodies text options) (bodies text' options) := by
  unfold bodies
  rw [hp]
  apply List.rel_filterMap _ (signatures_respaced options.signatureMode h)
  intro x x' hx
  exact Body.of?_respaced hx

/-! ## Reports -/

theorem newlinesBefore_respaced {bs bs' : List UInt8} {o o' : Nat} (hbs : Respaced breaks bs bs')
    (h : Respaced breaks (bs.drop o) (bs'.drop o')) : newlinesBefore bs o = newlinesBefore bs' o' := by
  have hall := newlinesBefore_add_count_drop bs o
  have hall' := newlinesBefore_add_count_drop bs' o'
  rw [h.count_newline, hbs.count_newline] at hall
  omega

theorem lineOf_respaced {bs bs' : List UInt8} {o o' : Nat} (hbs : Respaced breaks bs bs')
    (h : Respaced breaks (bs.drop o) (bs'.drop o')) :
    (LineIndex.ofBytes bs).lineOf o = (LineIndex.ofBytes bs').lineOf o' := by
  rw [LineIndex.lineOf_eq, LineIndex.lineOf_eq, newlinesBefore_respaced hbs h]

/-- The lines of a body are counted from a place shortly behind its opening brace. Behind corresponding
braces these places have equally many newlines behind them. -/
def SameFirstLines (breaks : LineBreak → Prop) (bs bs' : List UInt8) : Prop :=
  ∀ o o', Respaced breaks (bs.drop (o + 1)) (bs'.drop (o' + 1)) →
    (bs.drop (linesFrom bs o)).count Byte.newline = (bs'.drop (linesFrom bs' o')).count Byte.newline

namespace Body

theorem FoundIn.rest_brace {y : Body} {bs : List UInt8} (h : y.FoundIn bs) : y.brace.rest = bs.drop y.brace.offset := by
  rw [h.brace_eq, Cursor.rest_atOffset, ← h.brace_eq]

theorem FoundIn.drop_close {y : Body} {bs : List UInt8} (h : y.FoundIn bs) :
    y.brace.rest.drop (y.close - y.brace.offset) = bs.drop y.close := by
  have hlt := h.brace_lt
  rw [h.rest_brace, List.drop_drop, Nat.add_sub_of_le (Nat.le_of_lt hlt)]

theorem report_respaced {y y' : Body} {bs bs' : List UInt8} {mode : SignatureMode} {o o' : Nat}
    (h : y.Matches breaks y') (hbs : Respaced breaks bs bs') (hfirst : SameFirstLines breaks bs bs')
    (hx : y.signature.FoundAt mode bs o) (hy : y.FoundIn bs) (hx' : y'.signature.FoundAt mode bs' o')
    (hy' : y'.FoundIn bs') (maxLines : UInt64) : y.report (.ofBytes bs) maxLines = y'.report (.ofBytes bs') maxLines := by
  have hname : y.signature.name = y'.signature.name := by
    rw [Signature.name, Signature.name, hx.nameBytes_eq_takeWhile, hx'.nameBytes_eq_takeWhile,
      h.signature.first.takeWhile_eq fun b hb => Byte.not_isIdentifier_of_isWhite hb]
  have hstart : Respaced breaks (bs.drop y.signature.start) (bs'.drop y'.signature.start) := by
    have hrest := h.signature.first
    rwa [hx.first_eq, hx'.first_eq, Cursor.rest_atOffset, Cursor.rest_atOffset] at hrest
  have hclose : Respaced breaks (bs.drop y.close) (bs'.drop y'.close) := by
    have hrest := h.close
    rwa [hy.drop_close, hy'.drop_close] at hrest
  have hinside : Respaced breaks (bs.drop (y.brace.offset + 1)) (bs'.drop (y'.brace.offset + 1)) := by
    have hrest := h.brace
    rw [hy.rest_brace, hy'.rest_brace] at hrest
    have hhead : (bs.drop y.brace.offset).head? = some Byte.leftBrace := by rw [List.head?_drop, hy.brace_at]
    rw [← List.drop_drop, ← List.drop_drop]
    exact hrest.drop_one hhead (by decide)
  have hcount : y.lineCount = y'.lineCount := by
    rw [hy.lineCount_eq, hy'.lineCount_eq, hclose.count_newline, hfirst _ _ hinside]
  rw [report, report, hname, hcount, lineOf_respaced hbs hstart, lineOf_respaced hbs hclose]

end Body

theorem map_eq_of_forall₂ {α β γ : Type} {R : α → β → Prop} {f : α → γ} {g : β → γ} {l : List α} {l' : List β}
    (h : List.Forall₂ R l l') (hfg : ∀ a ∈ l, ∀ b ∈ l', R a b → f a = g b) : l.map f = l'.map g := by
  induction h with
  | nil => rfl
  | cons hab _ ih =>
    rw [List.map_cons, List.map_cons, hfg _ List.mem_cons_self _ List.mem_cons_self hab, ih]
    intro a ha b hb
    exact hfg a (List.mem_cons_of_mem _ ha) b (List.mem_cons_of_mem _ hb)

/-- Functions are reported alike, whatever the line breaks. -/
theorem scan_respaced {text text' : String} {options : ScanOptions} (hp : options.bracePlacement = .lenient)
    (h : Respaced breaks (bytes text) (bytes text')) (hfirst : SameFirstLines breaks (bytes text) (bytes text')) :
    scan text options = scan text' options := by
  rw [scan_eq, scan_eq, bodyReports, bodyReports]
  apply map_eq_of_forall₂ (bodies_respaced hp h)
  intro y hy y' hy' hyy'
  obtain ⟨hin, o, ho⟩ := mem_bodies hy
  obtain ⟨hin', o', ho'⟩ := mem_bodies hy'
  exact Body.report_respaced hyy' h hfirst ho hin ho' hin' options.maxLines

/-! ## Carriage returns -/

def LineBreak.crlf : LineBreak where
  before := [Byte.carriageReturn]
  after := []
  blank_of_mem_before := by simp [Byte.isBlank]
  blank_of_mem_after := by simp

/-- The text with a carriage return before each newline. -/
def crlf (text : String) : String :=
  .ofList (text.toList.flatMap fun c => if c = '\n' then ['\r', '\n'] else [c])

theorem respaced_crlf (text : String) : Respaced (· = .crlf) (bytes text) (bytes (crlf text)) := by
  rw [bytes_eq, bytes_eq, crlf, String.toList_ofList]
  induction text.toList with
  | nil => exact .nil
  | cons c cs ih =>
    rw [List.flatMap_cons, List.flatMap_cons, List.flatMap_append]
    by_cases hc : c = '\n'
    · subst hc
      exact .newline (w := .crlf) rfl ih
    · rw [if_neg hc, List.flatMap_singleton]
      apply Respaced.append_left _ ih
      rw [mem_utf8EncodeChar_iff (by decide)]
      exact hc

theorem drop_linesFrom (bs : List UInt8) (o : Nat) : bs.drop (linesFrom bs o) =
    (bs.drop (o + 1)).drop (if (bs.drop (o + 1)).head? = some Byte.carriageReturn then 2 else 1) := by
  rw [List.drop_drop, List.head?_drop, linesFrom]
  split <;> rfl

theorem sameFirstLines_crlf {bs bs' : List UInt8} (hcr : Byte.carriageReturn ∉ bs) :
    SameFirstLines (· = .crlf) bs bs' := by
  intro o o' h
  have hcr' : Byte.carriageReturn ∉ bs.drop (o + 1) := fun hmem => hcr (List.mem_of_mem_drop hmem)
  rw [drop_linesFrom, drop_linesFrom]
  generalize bs.drop (o + 1) = l at h hcr' ⊢
  generalize bs'.drop (o' + 1) = l' at h ⊢
  cases h with
  | nil => rfl
  | @byte b l l' _ h =>
    have hb : b ≠ Byte.carriageReturn := by
      rintro rfl
      exact hcr' List.mem_cons_self
    simp [hb, h.count_newline]
  | @newline w l l' hw h =>
    -- the first text counts from behind the newline, the second from behind both bytes
    subst hw
    have hne : (Byte.newline :: l).head? ≠ some Byte.carriageReturn := by simp [Byte.newline, Byte.carriageReturn]
    have hpos : (LineBreak.crlf.text ++ l').head? = some Byte.carriageReturn := rfl
    rw [if_neg hne, if_pos hpos]
    exact h.count_newline

/-! ## Main theorem -/

/-- Carriage returns before the newlines of a text that has none change no report, if the opening
braces may stand behind blanks. -/
theorem scan_crlf {text : String} (h : '\r' ∉ text.toList) (mode : SignatureMode) (maxLines : UInt64) :
    scan (crlf text) { maxLines, bracePlacement := .lenient, signatureMode := mode } =
      scan text { maxLines, bracePlacement := .lenient, signatureMode := mode } := by
  have hcr : Byte.carriageReturn ∉ bytes text := by
    rw [mem_bytes_iff (by decide)]
    exact h
  exact (scan_respaced rfl (respaced_crlf text) (sameFirstLines_crlf hcr)).symm

/-- A backslash in a string takes the carriage return with it instead of the newline. -/
theorem scan_crlf_escaped_newline :
    '\r' ∉ "f()\n\x7b\n\"\\\n\x7b\"; // \x7d\n\x7d".toList ∧
      (scan "f()\n\x7b\n\"\\\n\x7b\"; // \x7d\n\x7d" { bracePlacement := .lenient }).map (·.lineCount) = [2] ∧
      scan (crlf "f()\n\x7b\n\"\\\n\x7b\"; // \x7d\n\x7d") { bracePlacement := .lenient } =
        scan "f()\n\x7b\n\"\\\n\x7b\"; // \x7d\n\x7d" { bracePlacement := .lenient } := by
  have h : '\r' ∉ "f()\n\x7b\n\"\\\n\x7b\"; // \x7d\n\x7d".toList := by decide
  exact ⟨h, by decide +kernel, scan_crlf h .baseline 25⟩

end BodyLength
