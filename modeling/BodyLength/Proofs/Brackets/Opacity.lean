import BodyLength.Proofs.Brackets.Closing
import BodyLength.Proofs.Lexing.Segments
/-!
# Searches do not see what is hidden

Two texts that differ only in what an enclosure hides give the same searches for a closing
bracket. `Brackets.Step` is one round of such a search. A search that comes to the enclosure
in plain code has not read beyond its first byte (`steps_congr`), and the code behind the
enclosure is the same in both texts, only moved (`code_closed`).

Block comments hide less than they seem to: see `block_comment_content` for one that begins with
a slash.
-/

namespace BodyLength

/-- A search for a closing bracket under way. -/
structure Search where
  /-- How many inner brackets are to be closed. -/
  depth : Nat
  lex : LexState
  place : Cursor

namespace Brackets

/-- One round of a search that does not end there. -/
inductive Step (k : Brackets) : Search → Search → Prop
  | read {x : Search} {b : UInt8} {r : List UInt8} : x.place.rest = b :: r →
      k.ends x.depth (x.lex.stepAt x.place b r).code = false →
      Step k x ⟨k.depthAfter x.depth (x.lex.stepAt x.place b r).code, (x.lex.stepAt x.place b r).next,
        x.place.skip (x.lex.stepAt x.place b r).advance⟩

/-- The search for the bracket that closes the one at offset `o` comes to offset `q` in plain
code. -/
def Reaches (k : Brackets) (bs : List UInt8) (o q : Nat) : Prop :=
  ∃ d, Relation.ReflTransGen k.Step ⟨0, .plain, .atOffset bs (o + 1)⟩ ⟨d, .plain, .atOffset bs q⟩

variable {k : Brackets} {x y : Search}

theorem Step.offset_lt (h : k.Step x y) : x.place.offset < y.place.offset := by
  cases h with
  | @read b r hr _ =>
    have := x.lex.advance_step x.place.before b r.head?
    simp only [Cursor.offset_skip, LexState.stepAt]
    omega

theorem offset_le_of_steps (h : Relation.ReflTransGen k.Step x y) : x.place.offset ≤ y.place.offset := by
  induction h with
  | refl => exact Nat.le_refl _
  | tail _ h ih => exact Nat.le_trans ih (Nat.le_of_lt h.offset_lt)

/-- A round does not change what the search comes to. -/
theorem Step.closing_eq (h : k.Step x y) :
    k.closing x.depth (x.lex.code x.place) = k.closing y.depth (y.lex.code y.place) := by
  cases h with
  | read hr he => rw [x.lex.code_of_cons hr, closing_of_not_ends he]

theorem closing_of_steps (h : Relation.ReflTransGen k.Step x y) :
    k.closing x.depth (x.lex.code x.place) = k.closing y.depth (y.lex.code y.place) := by
  induction h with
  | refl => rfl
  | tail _ h ih => exact ih.trans h.closing_eq

/-- Two texts that agree up to offset `i`, and behind it if a slash stands there, make for the same step. -/
theorem stepAt_congr {bs bs' r : List UInt8} {b : UInt8} {i : Nat} (h : ∀ j ≤ i, bs[j]? = bs'[j]?)
    (hafter : b = Byte.slash → bs[i + 1]? = bs'[i + 1]?) (hr : bs.drop i = b :: r) (s : LexState) :
    ∃ r', bs'.drop i = b :: r' ∧ s.stepAt (.atOffset bs' i) b r' = s.stepAt (.atOffset bs i) b r := by
  have hhead : bs'[i]? = some b := by rw [← h i (Nat.le_refl i), ← List.head?_drop, hr, List.head?_cons]
  have hnext : r.head? = bs[i + 1]? := by rw [← List.head?_drop, ← List.tail_drop, hr, List.tail_cons]
  obtain ⟨r', hr'⟩ := List.head?_eq_some_iff.1 ((List.head?_drop ..).trans hhead)
  have hnext' : r'.head? = bs'[i + 1]? := by rw [← List.head?_drop, ← List.tail_drop, hr', List.tail_cons]
  have hbefore : (Cursor.atOffset bs' i).before = (Cursor.atOffset bs i).before := by
    cases i with
    | zero => rfl
    | succ i => rw [Cursor.before_atOffset_succ, Cursor.before_atOffset_succ, h i (Nat.le_succ i)]
  refine ⟨r', hr', ?_⟩
  rw [LexState.stepAt, LexState.stepAt, hbefore]
  by_cases hb : b = Byte.slash
  · rw [hnext, hnext', hafter hb]
  · exact Enclosure.step_after s hb ..

/-- What a search does on its way to offset `q` depends on no byte behind that offset. -/
theorem steps_congr {bs bs' : List UInt8} {q : Nat} (h : ∀ i ≤ q, bs[i]? = bs'[i]?)
    (hs : Relation.ReflTransGen k.Step x y) (hy : y.place = .atOffset bs q) {i : Nat}
    (hx : x.place = .atOffset bs i) :
    Relation.ReflTransGen k.Step { x with place := .atOffset bs' i } { y with place := .atOffset bs' q } := by
  induction hs using Relation.ReflTransGen.head_induction_on generalizing i with
  | refl =>
    have : i = q := by simpa using congrArg Cursor.offset (hx.symm.trans hy)
    rw [this]
  | @head x z hxz hzy ih =>
    -- rounds only go forward, so this one starts before `q` and looks no further than `q`
    have hiq : i < q := by
      have hlt := hxz.offset_lt
      have hle := offset_le_of_steps hzy
      rw [hx, Cursor.offset_atOffset] at hlt
      rw [hy, Cursor.offset_atOffset] at hle
      omega
    obtain ⟨d, s, c⟩ := x
    subst hx
    cases hxz with
    | @read b r hr he =>
      rw [Cursor.rest_atOffset] at hr
      obtain ⟨r', hr', hstep⟩ := stepAt_congr (fun j hj => h j (by omega)) (fun _ => h (i + 1) hiq) hr s
      have hz := ih (Cursor.skip_atOffset ..)
      refine .head ?_ hz
      have hround := Step.read (k := k) (x := ⟨d, s, .atOffset bs' i⟩) ((Cursor.rest_atOffset ..).trans hr')
        (by rw [hstep]; exact he)
      rwa [hstep, Cursor.skip_atOffset] at hround

/-- Where a search comes to a place in two texts that agree up to there, and the code from there
on is the same up to its offsets, it comes to the same bracket. -/
theorem Reaches.closing_congr {bs bs' : List UInt8} {o q m m' : Nat} {l : List (Nat × UInt8)}
    (hr : k.Reaches bs o q) (h : ∀ i ≤ q, bs[i]? = bs'[i]?)
    (hc : LexState.plain.code (.atOffset bs q) = l.map fun x => (x.1 + m, x.2))
    (hc' : LexState.plain.code (.atOffset bs' q) = l.map fun x => (x.1 + m', x.2)) :
    ∃ found : Option Nat, k.closing 0 (LexState.plain.code (.atOffset bs (o + 1))) = found.map (· + m) ∧
      k.closing 0 (LexState.plain.code (.atOffset bs' (o + 1))) = found.map (· + m') := by
  obtain ⟨d, hs⟩ := hr
  refine ⟨k.closing d l, ?_, ?_⟩
  · rw [← closing_map_add, ← hc]
    exact closing_of_steps hs
  · rw [← closing_map_add, ← hc']
    exact closing_of_steps (steps_congr (i := o + 1) h hs rfl rfl)

end Brackets

/-! ## Two texts -/

/-- The outcome with its offset moved. -/
def BraceMatch.shift (n : Nat) : BraceMatch → BraceMatch
  | closed p => closed (p + n)
  | unbalanced => unbalanced
  | interrupted => interrupted

/-- Searches from offset `o` on that come to offset `q` have the same outcome in two texts that
hold `n` and `n'` bytes of different content behind it. -/
structure SearchesAgree (bs bs' : List UInt8) (o q n n' : Nat) : Prop where
  braces : Brackets.braces.Reaches bs o q →
    (BraceMatch.search .never 0 (.atOffset bs o)).1.shift n' =
      (BraceMatch.search .never 0 (.atOffset bs' o)).1.shift n
  parens : Brackets.parens.Reaches bs o q →
    (SignatureMode.literalAware.close? (.atOffset bs (o + 1))).map (·.offset + n') =
      (SignatureMode.literalAware.close? (.atOffset bs' (o + 1))).map (·.offset + n)

theorem BraceMatch.shift_ofOffset? (n : Nat) (p : Option Nat) :
    (ofOffset? p).shift n = ofOffset? (p.map (· + n)) := by
  cases p <;> rfl

theorem searchesAgree_of_code {bs bs' : List UInt8} {o q m m' n n' : Nat} {l : List (Nat × UInt8)}
    (h : ∀ i ≤ q, bs[i]? = bs'[i]?)
    (hc : LexState.plain.code (.atOffset bs q) = l.map fun x => (x.1 + m, x.2))
    (hc' : LexState.plain.code (.atOffset bs' q) = l.map fun x => (x.1 + m', x.2)) (hn : m + n' = m' + n) :
    SearchesAgree bs bs' o q n n' := by
  constructor
  · intro hr
    obtain ⟨found, hf, hf'⟩ := hr.closing_congr h hc hc'
    rw [BraceMatch.search_never, BraceMatch.search_never, Cursor.skip_atOffset, Cursor.skip_atOffset, hf, hf',
      BraceMatch.shift_ofOffset?, BraceMatch.shift_ofOffset?, Option.map_map, Option.map_map]
    congr 2
    funext p
    simp only [Function.comp]
    omega
  · intro hr
    obtain ⟨found, hf, hf'⟩ := hr.closing_congr h hc hc'
    have ho := SignatureMode.literalAware.offset_close? (.atOffset bs (o + 1))
    have ho' := SignatureMode.literalAware.offset_close? (.atOffset bs' (o + 1))
    rw [SignatureMode.counted, hf] at ho
    rw [SignatureMode.counted, hf'] at ho'
    have hmap (x : Option Cursor) (n : Nat) : x.map (·.offset + n) = (x.map (·.offset)).map (· + n) := by
      rw [Option.map_map]
      rfl
    rw [hmap, hmap, ho, ho', Option.map_map, Option.map_map, Option.map_map, Option.map_map]
    congr 1
    funext p
    simp only [Function.comp]
    omega

/-! ## Enclosed bytes -/

namespace Enclosure

/-- What ends an enclosure in a text, which is more than belongs to it where it is a line
comment, and more than is left of it behind its body where it is a block comment. -/
def terminator : Enclosure → List UInt8
  | string => [Byte.doubleQuote]
  | char => [Byte.singleQuote]
  | lineComment => [Byte.newline]
  | blockComment => [Byte.star, Byte.slash]

/-- The text that encloses `content`. -/
def enclose (e : Enclosure) (content : List UInt8) : List UInt8 := e.opening ++ (content ++ e.terminator)

/-- A slash would end a block comment together with the star that opens it. -/
theorem hides_blockComment {content : List UInt8} (h : ¬ [Byte.star, Byte.slash] <:+: content)
    (hh : content.head? ≠ some Byte.slash) : blockComment.Hides content := by
  show ¬ _ <:+: Byte.star :: content
  rw [List.infix_cons_iff, not_or]
  refine ⟨?_, h⟩
  rintro ⟨l, hl⟩
  cases hl
  exact hh rfl

theorem closed_blockComment {content : List UInt8} (h : blockComment.Hides content) (rest : List UInt8) :
    blockComment.Closed (content ++ [Byte.star]) rest := by
  refine ⟨?_, ?_⟩
  · show ¬ _ <:+: (Byte.star :: content) ++ [Byte.star]
    rw [List.infix_concat_iff, not_or]
    refine ⟨?_, h⟩
    rintro ⟨l, hl⟩
    have := congrArg (·.reverse.head?) hl
    simp [Byte.star, Byte.slash] at this
  · show ((Byte.star :: content) ++ [Byte.star]).getLast? = some Byte.star
    exact List.getLast?_concat ..

theorem enclose_blockComment (content rest : List UInt8) : blockComment.enclose content ++ rest =
    blockComment.opening ++ ((content ++ [Byte.star]) ++ (blockComment.closing ++ rest)) := by
  simp [enclose, terminator, closing]

/-- What is hidden is the body of an enclosure, or the body without what begins the terminator. -/
theorem enclose_eq (e : Enclosure) (rest : List UInt8) : ∃ tail rest' : List UInt8, ∀ content, e.Hides content →
    e.Closed (content ++ tail) rest' ∧
      e.enclose content ++ rest = e.opening ++ ((content ++ tail) ++ (e.closing ++ rest')) := by
  cases e with
  | string | char =>
    exact ⟨[], rest, fun content h =>
      ⟨⟨by rwa [List.append_nil], trivial⟩, by simp [enclose, terminator, closing]⟩⟩
  | lineComment =>
    exact ⟨[], Byte.newline :: rest, fun content h =>
      ⟨⟨by rwa [List.append_nil], rfl⟩, by simp [enclose, terminator, closing]⟩⟩
  | blockComment =>
    exact ⟨[Byte.star], rest, fun content h => ⟨closed_blockComment h rest, enclose_blockComment content rest⟩⟩

/-- The code of a text that begins with an enclosure is the code behind it. -/
theorem code_closed {e : Enclosure} {body rest : List UInt8} {ss : List Segment} (h : e.Closed body rest)
    (hs : Segmented rest ss) (pre : List UInt8) :
    LexState.plain.code (.atOffset (pre ++ (e.opening ++ (body ++ (e.closing ++ rest)))) pre.length) =
      Segment.codeFrom (pre.length + (e.opening ++ (body ++ e.closing)).length) ss := by
  rw [Cursor.atOffset_eq, List.drop_left, code_of_segmented (.closed h hs)]
  rfl

theorem code_closed_eq {e : Enclosure} {body rest : List UInt8} (h : e.Closed body rest) (pre : List UInt8) :
    LexState.plain.code (.atOffset (pre ++ (e.opening ++ (body ++ (e.closing ++ rest)))) pre.length) =
      LexState.plain.code (.atOffset (pre ++ (e.opening ++ (body ++ (e.closing ++ rest))))
        (pre.length + (e.opening ++ (body ++ e.closing)).length)) := by
  obtain ⟨ss, hs⟩ := exists_segmented rest
  have hd : (pre ++ (e.opening ++ (body ++ (e.closing ++ rest)))).drop
      (pre.length + (e.opening ++ (body ++ e.closing)).length) = rest := by
    have hl : pre ++ (e.opening ++ (body ++ (e.closing ++ rest))) =
        (pre ++ (e.opening ++ (body ++ e.closing))) ++ rest := by simp
    rw [hl, ← List.length_append, List.drop_left]
  rw [code_closed h hs, Cursor.atOffset_eq, hd, code_of_segmented hs]

/-- How an enclosure opens shows in its first byte at most. -/
theorem getElem?_opening (e : Enclosure) (pre l l' : List UInt8) {i : Nat} (hi : i ≤ pre.length) :
    (pre ++ (e.opening ++ l))[i]? = (pre ++ (e.opening ++ l'))[i]? := by
  rcases Nat.lt_or_eq_of_le hi with h | rfl
  · rw [List.getElem?_append_left h, List.getElem?_append_left h]
  · rw [List.getElem?_append_right (Nat.le_refl _), List.getElem?_append_right (Nat.le_refl _), Nat.sub_self]
    cases e <;> rfl

theorem searchesAgree_of_closed {e : Enclosure} {body body' rest : List UInt8} (h : e.Closed body rest)
    (h' : e.Closed body' rest) (pre : List UInt8) (o : Nat) {n n' : Nat} (hn : body.length + n' = body'.length + n) :
    SearchesAgree (pre ++ (e.opening ++ (body ++ (e.closing ++ rest))))
      (pre ++ (e.opening ++ (body' ++ (e.closing ++ rest)))) o pre.length n n' := by
  obtain ⟨ss, hs⟩ := exists_segmented rest
  have hcode {body : List UInt8} (h : e.Closed body rest) :
      LexState.plain.code (.atOffset (pre ++ (e.opening ++ (body ++ (e.closing ++ rest)))) pre.length) =
        (Segment.codeFrom (pre.length + e.opening.length + e.closing.length) ss).map
          fun x => (x.1 + body.length, x.2) := by
    rw [code_closed h hs, ← Segment.codeFrom_add]
    congr 1
    simp only [List.length_append]
    omega
  exact searchesAgree_of_code (fun i hi => e.getElem?_opening pre _ _ hi) (hcode h) (hcode h') hn

end Enclosure

/-! ## Main theorems -/

/-- Whatever stands in a literal or comment, the searches that come to it have the same
outcome, moved by the difference in length. -/
theorem enclosed_content_hidden (e : Enclosure) {content content' : List UInt8} (h : e.Hides content)
    (h' : e.Hides content') (pre rest : List UInt8) (o : Nat) :
    SearchesAgree (pre ++ (e.enclose content ++ rest)) (pre ++ (e.enclose content' ++ rest)) o pre.length
      content.length content'.length := by
  obtain ⟨tail, rest', ht⟩ := e.enclose_eq rest
  obtain ⟨hc, heq⟩ := ht content h
  obtain ⟨hc', heq'⟩ := ht content' h'
  rw [heq, heq']
  exact Enclosure.searchesAgree_of_closed hc hc' pre o (by simp only [List.length_append]; omega)

theorem brace_in_string_hidden :
    Enclosure.string.Hides [Byte.rightBrace] ∧ Enclosure.string.Hides [Byte.backslash, Byte.doubleQuote] ∧
      Brackets.braces.Reaches
        ([Byte.leftBrace] ++ (Enclosure.string.enclose [Byte.rightBrace] ++ [Byte.rightBrace])) 0 1 ∧
      (BraceMatch.search .never 0 (.atOffset
        ([Byte.leftBrace] ++ (Enclosure.string.enclose [Byte.rightBrace] ++ [Byte.rightBrace])) 0)).1.shift 2 =
        (BraceMatch.search .never 0 (.atOffset ([Byte.leftBrace] ++
          (Enclosure.string.enclose [Byte.backslash, Byte.doubleQuote] ++ [Byte.rightBrace])) 0)).1.shift 1 := by
  have h : Enclosure.string.Hides [Byte.rightBrace] := .plain (by decide) (by decide) .nil
  have h' : Enclosure.string.Hides [Byte.backslash, Byte.doubleQuote] := .escape .nil
  have hr : Brackets.braces.Reaches
      ([Byte.leftBrace] ++ (Enclosure.string.enclose [Byte.rightBrace] ++ [Byte.rightBrace])) 0 1 := ⟨0, .refl⟩
  exact ⟨h, h', hr, (enclosed_content_hidden .string h h' [Byte.leftBrace] [Byte.rightBrace] 0).braces hr⟩

/-- A block comment hides its content unless that begins with a slash. The star that opens the
comment then ends it together with that slash, and the rest of the content counts. -/
theorem block_comment_content {c c' : List UInt8} (h : ¬ [Byte.star, Byte.slash] <:+: c)
    (h' : ¬ [Byte.star, Byte.slash] <:+: c') (pre rest : List UInt8) (o : Nat) :
    (c.head? ≠ some Byte.slash → c'.head? ≠ some Byte.slash →
      SearchesAgree (pre ++ (Enclosure.blockComment.enclose c ++ rest))
        (pre ++ (Enclosure.blockComment.enclose c' ++ rest)) o pre.length c.length c'.length ∧
      LexState.plain.code (.atOffset (pre ++ (Enclosure.blockComment.enclose c ++ rest)) pre.length) =
        LexState.plain.code (.atOffset (pre ++ (Enclosure.blockComment.enclose c ++ rest))
          (pre.length + (Enclosure.blockComment.enclose c).length))) ∧
    (∀ d, c = Byte.slash :: d →
      SearchesAgree (pre ++ (Enclosure.blockComment.enclose c ++ rest))
        (pre ++ (Enclosure.blockComment.enclose [] ++ (d ++ (Enclosure.blockComment.terminator ++ rest)))) o
        pre.length 0 1) := by
  refine ⟨fun hh hh' => ?_, ?_⟩
  · have hc := Enclosure.closed_blockComment (Enclosure.hides_blockComment h hh) rest
    have hc' := Enclosure.closed_blockComment (Enclosure.hides_blockComment h' hh') rest
    have hl : (Enclosure.blockComment.enclose c).length =
        (Enclosure.blockComment.opening ++ ((c ++ [Byte.star]) ++ Enclosure.blockComment.closing)).length := by
      simp [Enclosure.enclose, Enclosure.terminator, Enclosure.closing]
    rw [hl, Enclosure.enclose_blockComment, Enclosure.enclose_blockComment]
    exact ⟨Enclosure.searchesAgree_of_closed hc hc' pre o (by simp only [List.length_append]; omega),
      Enclosure.code_closed_eq hc pre⟩
  · rintro d rfl
    have hb : Enclosure.blockComment.Hides [] := Enclosure.hides_blockComment (by decide) (by decide)
    have hc : Enclosure.blockComment.Closed [] (d ++ (Enclosure.blockComment.terminator ++ rest)) := ⟨hb, rfl⟩
    have hc' := Enclosure.closed_blockComment hb (d ++ (Enclosure.blockComment.terminator ++ rest))
    have hd : Enclosure.blockComment.enclose (Byte.slash :: d) ++ rest = Enclosure.blockComment.opening ++
        ([] ++ (Enclosure.blockComment.closing ++ (d ++ (Enclosure.blockComment.terminator ++ rest)))) := by
      simp [Enclosure.enclose, Enclosure.closing]
    rw [hd, Enclosure.enclose_blockComment]
    exact Enclosure.searchesAgree_of_closed hc hc' pre o rfl

theorem brace_in_block_comment :
    ¬ [Byte.star, Byte.slash] <:+: [Byte.rightBrace] ∧ ¬ [Byte.star, Byte.slash] <:+: ([] : List UInt8) ∧
      ¬ [Byte.star, Byte.slash] <:+: [Byte.slash, Byte.rightBrace] ∧
      (BraceMatch.search .never 0 (.atOffset ([Byte.leftBrace] ++
        (Enclosure.blockComment.enclose [Byte.rightBrace] ++ [Byte.rightBrace])) 0)).1.shift 0 =
        (BraceMatch.search .never 0 (.atOffset ([Byte.leftBrace] ++
          (Enclosure.blockComment.enclose [] ++ [Byte.rightBrace])) 0)).1.shift 1 ∧
      (BraceMatch.search .never 0 (.atOffset ([Byte.leftBrace] ++
        (Enclosure.blockComment.enclose [Byte.slash, Byte.rightBrace] ++ [Byte.rightBrace])) 0)).1.shift 1 =
        (BraceMatch.search .never 0 (.atOffset ([Byte.leftBrace] ++ (Enclosure.blockComment.enclose [] ++
          ([Byte.rightBrace] ++ (Enclosure.blockComment.terminator ++ [Byte.rightBrace])))) 0)).1.shift 0 := by
  have h : ¬ [Byte.star, Byte.slash] <:+: [Byte.rightBrace] := by decide
  have hn : ¬ [Byte.star, Byte.slash] <:+: ([] : List UInt8) := by decide
  have hs : ¬ [Byte.star, Byte.slash] <:+: [Byte.slash, Byte.rightBrace] := by decide
  refine ⟨h, hn, hs, ?_, ?_⟩
  · have hidden := (block_comment_content h hn [Byte.leftBrace] [Byte.rightBrace] 0).1 (by decide) (by decide)
    exact hidden.1.braces ⟨0, .refl⟩
  · have early := (block_comment_content hs hn [Byte.leftBrace] [Byte.rightBrace] 0).2 [Byte.rightBrace] rfl
    exact early.braces ⟨0, .refl⟩

/-- A body may end inside a block comment: the brace in `/*/}*/` closes it. -/
theorem block_comment_not_opaque :
    ¬ ∀ (pre c c' rest : List UInt8) (o : Nat),
      ¬ [Byte.star, Byte.slash] <:+: c → ¬ [Byte.star, Byte.slash] <:+: c' →
      SearchesAgree (pre ++ (Enclosure.blockComment.enclose c ++ rest))
        (pre ++ (Enclosure.blockComment.enclose c' ++ rest)) o pre.length c.length c'.length := by
  intro h
  have hb := (h [Byte.leftBrace] [Byte.slash, Byte.rightBrace] [] [Byte.rightBrace] 0 (by decide) (by decide)).braces
    ⟨0, .refl⟩
  revert hb
  decide +kernel

end BodyLength
