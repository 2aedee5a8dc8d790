import BodyLength.Proofs.Json.Scalars
/-!
# Values are read as they were written

Whatever is still open and whatever follows, the text of a value takes the reader from a place
where a value may stand to the place behind that value. The node it gains there has the value
that was written; positions are the only thing about it that depends on the place.

`JsonDocument.readFrom` is the reader in the middle of a text, and `JsonStep.goOn` is what is
left for it to do after a step. A list is read if each of its items is, so the induction over
nested values never looks inside two of them at once.
-/

namespace BodyLength

open JsonText JsonToken JsonStep

/-! ## Reading on from a place -/

/-- Reads the text `s` that is left at `p`, with `frames` still open. -/
def JsonDocument.readFrom (p : JsonPosition) (frames : List JsonFrame) (state : JsonState)
    (s : List Char) : JsonDocument :=
  ofTokens (JsonToken.scan p s).2 frames state (JsonToken.scan p s).1

/-- What comes of a text when the step behind which `s` is left at `q` came to this. -/
def JsonStep.goOn (q : JsonPosition) (s : List Char) : JsonStep → JsonDocument
  | .next frames state => JsonDocument.readFrom q frames state s
  | .complete n => ⟨n, (JsonToken.scan q s).1.head?.map fun t => t.start.right 1⟩
  | .stop n => ⟨n, none⟩

/-- A value may stand here. -/
def JsonState.AwaitsValue : JsonState → Prop
  | .value | .firstItem | .item => True
  | _ => False

/-- A key may stand here. -/
def JsonState.AwaitsKey : JsonState → Prop
  | .firstKey | .key => True
  | _ => False

namespace JsonDocument

section Steps

variable (p start : JsonPosition) (frames : List JsonFrame) {state : JsonState} (s : List Char)

theorem readFrom_token (state : JsonState) {t : JsonToken} {q : JsonPosition} {rest : List Char}
    (h : JsonToken.scan p s = (t :: (JsonToken.scan q rest).1, (JsonToken.scan q rest).2)) :
    ∃ settled, readFrom p frames state s = goOn q rest (ofToken frames state t settled) := by
  refine ⟨settledAt (JsonToken.scan q rest).2 (JsonToken.scan q rest).1, ?_⟩
  rw [readFrom, h, ofTokens]
  cases ofToken frames state t (settledAt (JsonToken.scan q rest).2 (JsonToken.scan q rest).1) <;> rfl

theorem readFrom_mark (state : JsonState) {c : Char} {kind : JsonTokenKind}
    (hspace : isSpace c = false) (h : mark? c = some kind) :
    ∃ settled, readFrom p frames state (c :: s) =
      goOn (p.right 1) s (ofToken frames state ⟨kind, p, p.right 1⟩ settled) :=
  readFrom_token p frames (c :: s) state (scan_mark p s hspace h)

theorem readFrom_space (state : JsonState) (space : List Char) (h : ∀ c ∈ space, isSpace c) :
    ∃ q, readFrom p frames state (space ++ s) = readFrom q frames state s :=
  ⟨_, by rw [readFrom, scan_space p s h]; rfl⟩

theorem readFrom_newline (state : JsonState) (level : Nat) :
    ∃ q, readFrom p frames state (newline level ++ s) = readFrom q frames state s :=
  readFrom_space p frames s state (newline level) fun _ => isSpace_of_mem_newline

theorem ofToken_of_awaitsValue {t : JsonToken} {settled : JsonPosition}
    (hstate : state.AwaitsValue) (h : t.kind ≠ .rightBracket) :
    ofToken frames state t settled = JsonStep.value frames t := by
  unfold ofToken
  split
  all_goals first | rfl | contradiction

theorem ofToken_of_awaitsKey {t : JsonToken} {settled : JsonPosition}
    (hstate : state.AwaitsKey) (h : t.kind ≠ .rightBrace) :
    ofToken frames state t settled = JsonStep.key frames t settled := by
  unfold ofToken
  split
  all_goals first | rfl | contradiction

/-- The text of a key and its colon are read up to where its value begins. -/
theorem readFrom_key (read : List (JsonKey × JsonNode)) (k : String) (hstate : state.AwaitsKey) :
    ∃ key q, key.name = k ∧
      readFrom p (.object start read :: frames) state (encode k ++ ':' :: ' ' :: s) =
        readFrom q (.member start read key :: frames) .value s := by
  obtain ⟨q, hscan⟩ := scan_scalar (.text k) p trivial
    (endsNumber_cons (c := ':') (' ' :: s) (by decide))
  obtain ⟨settled, hkey⟩ := readFrom_token p (.object start read :: frames) _ state hscan
  rw [ofToken_of_awaitsKey _ hstate (by simp)] at hkey
  obtain ⟨_, hcolon⟩ := readFrom_mark q (.object start read :: frames) (' ' :: s)
    (.colon ⟨k, settled⟩) (c := ':') rfl rfl
  obtain ⟨q', hspace⟩ := readFrom_space (q.right 1) (.member start read ⟨k, settled⟩ :: frames) s
    .value [' '] (List.forall_mem_singleton.2 rfl)
  exact ⟨⟨k, settled⟩, q', rfl, hkey.trans (hcolon.trans hspace)⟩

theorem readFrom_openArray (hstate : state.AwaitsValue)
    (hdepth : frames.length + 1 < depthLimit) :
    readFrom p frames state ('[' :: s) =
      readFrom (p.right 1) (.array p [] :: frames) .firstItem s := by
  obtain ⟨_, hmark⟩ := readFrom_mark p frames s state (c := '[') rfl rfl
  have hvalue : JsonStep.value frames ⟨.leftBracket, p, p.right 1⟩ =
      .next (.array p [] :: frames) .firstItem := if_neg (Nat.not_le_of_lt hdepth)
  rwa [ofToken_of_awaitsValue frames hstate (by simp), hvalue] at hmark

theorem readFrom_openObject (hstate : state.AwaitsValue)
    (hdepth : frames.length + 1 < depthLimit) :
    readFrom p frames state ('\x7b' :: s) =
      readFrom (p.right 1) (.object p [] :: frames) .firstKey s := by
  obtain ⟨_, hmark⟩ := readFrom_mark p frames s state (c := '\x7b') rfl rfl
  have hvalue : JsonStep.value frames ⟨.leftBrace, p, p.right 1⟩ =
      .next (.object p [] :: frames) .firstKey := if_neg (Nat.not_le_of_lt hdepth)
  rwa [ofToken_of_awaitsValue frames hstate (by simp), hvalue] at hmark

theorem readFrom_closeArray (read : List JsonNode) (level : Nat) :
    ∃ q, readFrom p (.array start read :: frames) .separator (newline level ++ ']' :: s) =
      goOn q s (afterValue (.array start read.reverse (.closed q)) frames) := by
  obtain ⟨q, hline⟩ := readFrom_newline p (.array start read :: frames) (']' :: s) .separator level
  obtain ⟨_, hmark⟩ := readFrom_mark q (.array start read :: frames) s .separator (c := ']') rfl rfl
  exact ⟨q.right 1, hline.trans hmark⟩

theorem readFrom_closeObject (read : List (JsonKey × JsonNode)) (level : Nat) :
    ∃ q, readFrom p (.object start read :: frames) .separator (newline level ++ '\x7d' :: s) =
      goOn q s (afterValue (.object start read.reverse (.closed q)) frames) := by
  obtain ⟨q, hline⟩ :=
    readFrom_newline p (.object start read :: frames) ('\x7d' :: s) .separator level
  obtain ⟨_, hmark⟩ :=
    readFrom_mark q (.object start read :: frames) s .separator (c := '\x7d') rfl rfl
  exact ⟨q.right 1, hline.trans hmark⟩

end Steps

end JsonDocument

/-! ## Values -/

/-- A value whose numbers are exact, with no bracket inside `d` others. -/
inductive JsonValue.Fits : Nat → JsonValue → Prop
  | scalar {d : Nat} {x : JsonScalar} (h : x.IsExact) : Fits d (.scalar x)
  | array {d : Nat} {xs : List JsonValue} (h : ∀ x ∈ xs, Fits d x) : Fits (d + 1) (.array xs)
  | object {d : Nat} {ms : List (String × JsonValue)} (h : ∀ m ∈ ms, Fits d m.2) :
    Fits (d + 1) (.object ms)

/-- The text of `v` is read as `v` wherever a value may stand and `d` more brackets may be
opened. -/
def JsonValue.IsRead (d : Nat) (v : JsonValue) : Prop :=
  ∀ (level : Nat) (p : JsonPosition) (frames : List JsonFrame) (state : JsonState)
    (rest : List Char), frames.length + d < depthLimit → state.AwaitsValue → EndsNumber rest →
    ∃ n q, n.readValue = .ok v ∧
      JsonDocument.readFrom p frames state (JsonText.value level v ++ rest) =
        goOn q rest (afterValue n frames)

namespace JsonDocument

section Values

variable {d : Nat} (level : Nat) (p start : JsonPosition) {frames : List JsonFrame}
  {rest : List Char}

theorem endsNumber_items (xs : List JsonValue) (h : EndsNumber rest) :
    EndsNumber (items level xs ++ rest) := by
  cases xs with
  | nil => exact h
  | cons x xs => exact endsNumber_cons _ (by decide)

theorem endsNumber_members (ms : List (String × JsonValue)) (h : EndsNumber rest) :
    EndsNumber (members level ms ++ rest) := by
  cases ms with
  | nil => exact h
  | cons m ms => exact endsNumber_cons _ (by decide)

theorem isRead_scalar {x : JsonScalar} (h : x.IsExact) : JsonValue.IsRead d (.scalar x) := by
  intro level p frames state rest _ hstate hrest
  obtain ⟨q, hscan⟩ := scan_scalar x p h hrest
  obtain ⟨settled, hread⟩ := readFrom_token p frames _ state hscan
  refine ⟨.scalar x p q, q, rfl, ?_⟩
  rw [JsonText.value, hread, ofToken_of_awaitsValue frames hstate (by simp)]
  rfl

/-- An item on a line of its own joins those in the list that is open. -/
theorem readFrom_item {x : JsonValue} {state : JsonState} (hx : x.IsRead d)
    (hd : frames.length + 1 + d < depthLimit) (hstate : state.AwaitsValue)
    (hrest : EndsNumber rest) (read : List JsonNode) :
    ∃ n q, n.readValue = .ok x ∧
      readFrom p (.array start read :: frames) state
          (newline level ++ (JsonText.value level x ++ rest)) =
        readFrom q (.array start (n :: read) :: frames) .separator rest := by
  obtain ⟨q, hline⟩ := readFrom_newline p (.array start read :: frames)
    (JsonText.value level x ++ rest) state level
  obtain ⟨n, q', hn, hvalue⟩ :=
    hx level q (.array start read :: frames) state rest hd hstate hrest
  exact ⟨n, q', hn, hline.trans hvalue⟩

/-- A member on a line of its own joins those in the object that is open. -/
theorem readFrom_member {x : JsonValue} {state : JsonState} (k : String) (hx : x.IsRead d)
    (hd : frames.length + 1 + d < depthLimit) (hstate : state.AwaitsKey)
    (hrest : EndsNumber rest) (read : List (JsonKey × JsonNode)) :
    ∃ key n q, key.name = k ∧ n.readValue = .ok x ∧
      readFrom p (.object start read :: frames) state
          (newline level ++ (encode k ++ ':' :: ' ' :: (JsonText.value level x ++ rest))) =
        readFrom q (.object start ((key, n) :: read) :: frames) .separator rest := by
  obtain ⟨q, hline⟩ := readFrom_newline p (.object start read :: frames)
    (encode k ++ ':' :: ' ' :: (JsonText.value level x ++ rest)) state level
  obtain ⟨key, q', hname, hkey⟩ :=
    readFrom_key q start frames (JsonText.value level x ++ rest) read k hstate
  obtain ⟨n, q'', hn, hvalue⟩ :=
    hx level q' (.member start read key :: frames) .value rest hd trivial hrest
  exact ⟨key, n, q'', hname, hn, hline.trans (hkey.trans hvalue)⟩

theorem readFrom_items {xs : List JsonValue} (hxs : ∀ x ∈ xs, x.IsRead d)
    (hd : frames.length + 1 + d < depthLimit) (hrest : EndsNumber rest) (read : List JsonNode) :
    ∃ ns q, JsonNode.readItems ns = .ok xs ∧
      readFrom p (.array start read :: frames) .separator (items level xs ++ rest) =
        readFrom q (.array start (ns.reverse ++ read) :: frames) .separator rest := by
  induction xs generalizing p read with
  | nil => exact ⟨[], p, rfl, rfl⟩
  | cons x xs ih =>
    obtain ⟨_, hcomma⟩ := readFrom_mark p (.array start read :: frames)
      (newline level ++ (JsonText.value level x ++ (items level xs ++ rest))) .separator
      (c := ',') rfl rfl
    obtain ⟨n, q, hn, hitem⟩ := readFrom_item level (p.right 1) start (hxs x List.mem_cons_self)
      hd (show JsonState.AwaitsValue .item from trivial) (endsNumber_items level xs hrest) read
    obtain ⟨ns, q', hns, hmore⟩ :=
      ih q (fun y hy => hxs y (List.mem_cons_of_mem x hy)) (n :: read)
    -- What has been read comes in reverse, so later items stand in front of it.
    refine ⟨n :: ns, q', ?_, ?_⟩
    · rw [JsonNode.readItems, hn, hns]
      rfl
    · simp only [items, List.cons_append, List.append_assoc, List.reverse_cons, List.nil_append]
      exact hcomma.trans (hitem.trans hmore)

theorem readFrom_members {ms : List (String × JsonValue)} (hms : ∀ m ∈ ms, m.2.IsRead d)
    (hd : frames.length + 1 + d < depthLimit) (hrest : EndsNumber rest)
    (read : List (JsonKey × JsonNode)) :
    ∃ ns q, JsonNode.readMembers ns = .ok ms ∧
      readFrom p (.object start read :: frames) .separator (members level ms ++ rest) =
        readFrom q (.object start (ns.reverse ++ read) :: frames) .separator rest := by
  induction ms generalizing p read with
  | nil => exact ⟨[], p, rfl, rfl⟩
  | cons m ms ih =>
    obtain ⟨k, x⟩ := m
    obtain ⟨_, hcomma⟩ := readFrom_mark p (.object start read :: frames)
      (newline level ++ (encode k ++
        ':' :: ' ' :: (JsonText.value level x ++ (members level ms ++ rest)))) .separator
      (c := ',') rfl rfl
    obtain ⟨key, n, q, hname, hn, hmember⟩ := readFrom_member level (p.right 1) start k
      (hms (k, x) List.mem_cons_self) hd (show JsonState.AwaitsKey .key from trivial)
      (endsNumber_members level ms hrest) read
    obtain ⟨ns, q', hns, hmore⟩ :=
      ih q (fun m hm => hms m (List.mem_cons_of_mem _ hm)) ((key, n) :: read)
    refine ⟨(key, n) :: ns, q', ?_, ?_⟩
    · rw [JsonNode.readMembers, hn, hns, ← hname]
      rfl
    · simp only [members, List.cons_append, List.append_assoc, List.reverse_cons, List.nil_append]
      exact hcomma.trans (hmember.trans hmore)

theorem isRead_array {xs : List JsonValue} (h : ∀ x ∈ xs, x.IsRead d) :
    JsonValue.IsRead (d + 1) (.array xs) := by
  intro level p frames state rest hd hstate hrest
  have hdepth : frames.length + 1 + d < depthLimit := by omega
  cases xs with
  | nil =>
    have hopen := readFrom_openArray p frames (']' :: rest) hstate (by omega)
    obtain ⟨_, hclose⟩ := readFrom_mark (p.right 1) (.array p [] :: frames) rest .firstItem
      (c := ']') rfl rfl
    exact ⟨.array p [] (.closed _), _, rfl, hopen.trans hclose⟩
  | cons x xs =>
    -- Behind the last item a line break ends a number, where a comma does behind the others.
    have hend : EndsNumber (newline level ++ ']' :: rest) := endsNumber_cons _ (by decide)
    have hopen := readFrom_openArray p frames (newline (level + 1) ++
      (JsonText.value (level + 1) x ++ (items (level + 1) xs ++ (newline level ++ ']' :: rest))))
      hstate (by omega)
    obtain ⟨n, q, hn, hitem⟩ := readFrom_item (level + 1) (p.right 1) p
      (h x List.mem_cons_self) hdepth (show JsonState.AwaitsValue .firstItem from trivial)
      (endsNumber_items (level + 1) xs hend) []
    obtain ⟨ns, q', hns, hmore⟩ := readFrom_items (level + 1) q p
      (fun y hy => h y (List.mem_cons_of_mem x hy)) hdepth hend [n]
    obtain ⟨q'', hclose⟩ := readFrom_closeArray q' p frames rest (ns.reverse ++ [n]) level
    refine ⟨.array p (ns.reverse ++ [n]).reverse (.closed q''), q'', ?_, ?_⟩
    · simp only [List.reverse_append, List.reverse_reverse, List.reverse_singleton,
        List.singleton_append]
      rw [JsonNode.readValue, JsonNode.readItems, hn, hns]
      rfl
    · simp only [JsonText.value, List.cons_append, List.append_assoc, List.nil_append]
      exact hopen.trans (hitem.trans (hmore.trans hclose))

theorem isRead_object {ms : List (String × JsonValue)} (h : ∀ m ∈ ms, m.2.IsRead d) :
    JsonValue.IsRead (d + 1) (.object ms) := by
  intro level p frames state rest hd hstate hrest
  have hdepth : frames.length + 1 + d < depthLimit := by omega
  cases ms with
  | nil =>
    have hopen := readFrom_openObject p frames ('\x7d' :: rest) hstate (by omega)
    obtain ⟨_, hclose⟩ := readFrom_mark (p.right 1) (.object p [] :: frames) rest .firstKey
      (c := '\x7d') rfl rfl
    exact ⟨.object p [] (.closed _), _, rfl, hopen.trans hclose⟩
  | cons m ms =>
    obtain ⟨k, x⟩ := m
    have hend : EndsNumber (newline level ++ '\x7d' :: rest) := endsNumber_cons _ (by decide)
    have hopen := readFrom_openObject p frames (newline (level + 1) ++ (encode k ++
      ':' :: ' ' :: (JsonText.value (level + 1) x ++
        (members (level + 1) ms ++ (newline level ++ '\x7d' :: rest))))) hstate (by omega)
    obtain ⟨key, n, q, hname, hn, hmember⟩ := readFrom_member (level + 1) (p.right 1) p k
      (h (k, x) List.mem_cons_self) hdepth (show JsonState.AwaitsKey .firstKey from trivial)
      (endsNumber_members (level + 1) ms hend) []
    obtain ⟨ns, q', hns, hmore⟩ := readFrom_members (level + 1) q p
      (fun m hm => h m (List.mem_cons_of_mem _ hm)) hdepth hend [(key, n)]
    obtain ⟨q'', hclose⟩ := readFrom_closeObject q' p frames rest (ns.reverse ++ [(key, n)]) level
    refine ⟨.object p (ns.reverse ++ [(key, n)]).reverse (.closed q''), q'', ?_, ?_⟩
    · simp only [List.reverse_append, List.reverse_reverse, List.reverse_singleton,
        List.singleton_append]
      rw [JsonNode.readValue, JsonNode.readMembers, hn, hns, ← hname]
      rfl
    · simp only [JsonText.value, List.cons_append, List.append_assoc, List.nil_append]
      exact hopen.trans (hmember.trans (hmore.trans hclose))

theorem isRead_of_fits {v : JsonValue} (h : v.Fits d) : v.IsRead d := by
  induction h with
  | scalar h => exact isRead_scalar h
  | array _ ih => exact isRead_array ih
  | object _ ih => exact isRead_object ih

end Values

/-- The text of a value is read as that value, with nothing behind it, as long as its numbers are exact and its
brackets are not nested deeper than the reader allows. -/
theorem ofText_pretty {v : JsonValue} (h : v.Fits (depthLimit - 1)) :
    ∃ n, n.readValue = .ok v ∧ ofText v.pretty = ⟨n, none⟩ := by
  obtain ⟨n, q, hn, hread⟩ :=
    isRead_of_fits h 0 {} [] .value [] (by decide) trivial endsNumber_nil
  refine ⟨n, hn, ?_⟩
  rw [List.append_nil] at hread
  rw [ofText, JsonValue.pretty, String.toList_ofList]
  exact hread.trans (by simp [afterValue, goOn, JsonToken.scan])

end JsonDocument

end BodyLength
