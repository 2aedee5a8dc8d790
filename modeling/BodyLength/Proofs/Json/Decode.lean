import Mathlib.Data.List.Basic
import BodyLength.Json.Decode
/-!
# What a reader finds in a node

The value of a node settles what a reader of a known type makes of it; such a reader never needs
to know where in the text the node stands, except for its errors. A node with a value has no
fault anywhere in it, so from the value comes back the shape of the node, one level at a time.
-/

namespace BodyLength

/-- Steps of which any may fail come to a result through a result of each. -/
theorem bind_eq_ok {α β ε : Type} {x : Except ε α} {f : α → Except ε β} {b : β}
    (h : x >>= f = .ok b) : ∃ a, x = .ok a ∧ f a = .ok b := by
  cases x with
  | error e => cases h
  | ok a => exact ⟨a, rfl, h⟩

/-- A result that is seen without the reasons of a failure. -/
theorem eq_ok_of_toOption {α ε : Type} {x : Except ε α} {a : α} (h : x.toOption = some a) : x = .ok a := by
  cases x with
  | error e => cases h
  | ok b =>
    cases h
    rfl

namespace JsonNode

variable {v : JsonValue} {start : JsonPosition} {tail : JsonTail}

theorem readValue_array_eq_ok {ns : List JsonNode} (h : (array start ns tail).readValue = .ok v) :
    ∃ xs stop, readItems ns = .ok xs ∧ readTail tail = .ok stop ∧ v = .array xs := by
  obtain ⟨xs, hxs, h⟩ := bind_eq_ok h
  obtain ⟨stop, hstop, h⟩ := bind_eq_ok h
  cases h
  exact ⟨xs, stop, hxs, hstop, rfl⟩

theorem readValue_object_eq_ok {ms : List (JsonKey × JsonNode)}
    (h : (object start ms tail).readValue = .ok v) :
    ∃ vs stop, readMembers ms = .ok vs ∧ readTail tail = .ok stop ∧ v = .object vs := by
  obtain ⟨vs, hvs, h⟩ := bind_eq_ok h
  obtain ⟨stop, hstop, h⟩ := bind_eq_ok h
  cases h
  exact ⟨vs, stop, hvs, hstop, rfl⟩

theorem readItems_cons_eq_ok {n : JsonNode} {ns : List JsonNode} {ys : List JsonValue}
    (h : readItems (n :: ns) = .ok ys) :
    ∃ x xs, n.readValue = .ok x ∧ readItems ns = .ok xs ∧ ys = x :: xs := by
  obtain ⟨x, hx, h⟩ := bind_eq_ok h
  obtain ⟨xs, hxs, h⟩ := bind_eq_ok h
  cases h
  exact ⟨x, xs, hx, hxs, rfl⟩

theorem readMembers_cons_eq_ok {key : JsonKey} {n : JsonNode} {ms : List (JsonKey × JsonNode)}
    {ws : List (String × JsonValue)} (h : readMembers ((key, n) :: ms) = .ok ws) :
    ∃ x vs, n.readValue = .ok x ∧ readMembers ms = .ok vs ∧ ws = (key.name, x) :: vs := by
  obtain ⟨x, hx, h⟩ := bind_eq_ok h
  obtain ⟨vs, hvs, h⟩ := bind_eq_ok h
  cases h
  exact ⟨x, vs, hx, hvs, rfl⟩

theorem eq_of_readValue_scalar {n : JsonNode} {x : JsonScalar}
    (h : n.readValue = .ok (.scalar x)) : ∃ start stop, n = .scalar x start stop := by
  cases n with
  | scalar y start stop =>
    cases h
    exact ⟨start, stop, rfl⟩
  | array start ns tail =>
    obtain ⟨_, _, _, _, h⟩ := readValue_array_eq_ok h
    cases h
  | object start ms tail =>
    obtain ⟨_, _, _, _, h⟩ := readValue_object_eq_ok h
    cases h
  | fault peek e => cases h

theorem eq_of_readValue_array {n : JsonNode} {xs : List JsonValue}
    (h : n.readValue = .ok (.array xs)) :
    ∃ start ns tail stop, n = .array start ns tail ∧ readItems ns = .ok xs ∧
      readTail tail = .ok stop := by
  cases n with
  | scalar y start stop => cases h
  | array start ns tail =>
    obtain ⟨_, stop, hns, htail, h⟩ := readValue_array_eq_ok h
    cases h
    exact ⟨start, ns, tail, stop, rfl, hns, htail⟩
  | object start ms tail =>
    obtain ⟨_, _, _, _, h⟩ := readValue_object_eq_ok h
    cases h
  | fault peek e => cases h

theorem eq_of_readValue_object {n : JsonNode} {vs : List (String × JsonValue)}
    (h : n.readValue = .ok (.object vs)) :
    ∃ start ms tail stop, n = .object start ms tail ∧ readMembers ms = .ok vs ∧
      readTail tail = .ok stop := by
  cases n with
  | scalar y start stop => cases h
  | array start ns tail =>
    obtain ⟨_, _, _, _, h⟩ := readValue_array_eq_ok h
    cases h
  | object start ms tail =>
    obtain ⟨_, stop, hms, htail, h⟩ := readValue_object_eq_ok h
    cases h
    exact ⟨start, ms, tail, stop, rfl, hms, htail⟩
  | fault peek e => cases h

/-- A list is read by any reader of what its items hold. -/
theorem readList_of_readValue {α : Type} (value : α → JsonValue)
    {reader : JsonNode → Except JsonError α}
    (hreader : ∀ n x, n.readValue = .ok (value x) → reader n = .ok x) {n : JsonNode}
    {xs : List α} (h : n.readValue = .ok (.array (xs.map value))) :
    readList reader n = .ok xs := by
  obtain ⟨start, ns, tail, stop, rfl, hitems, htail⟩ := eq_of_readValue_array h
  have hmap : ns.mapM reader = .ok xs := by
    clear h
    induction ns generalizing xs with
    | nil =>
      cases xs with
      | nil => rfl
      | cons x xs => cases hitems
    | cons n ns ih =>
      obtain ⟨y, ys, hn, hns, heq⟩ := readItems_cons_eq_ok hitems
      obtain ⟨x, xs, rfl, rfl, rfl⟩ := List.map_eq_cons_iff.mp heq
      rw [List.mapM_cons, hreader n x hn, ih hns]
      rfl
  rw [readList, hmap, htail]
  rfl

end JsonNode

namespace JsonValue

theorem word_of_le {limit k : Nat} (expected : JsonExpectation) (h : k ≤ limit) :
    word limit expected (.scalar (.integer k)) = .ok k :=
  if_pos ⟨Int.natCast_nonneg k, Int.ofNat_le.mpr h⟩

theorem word32_toNat (x : UInt32) : word32 (.scalar (.integer x.toNat)) = .ok x := by
  rw [word32, word_of_le _ (Nat.le_sub_one_of_lt x.toNat_lt)]
  exact congrArg _ (UInt32.ofNat_toNat)

theorem word64_toNat (x : UInt64) : word64 (.scalar (.integer x.toNat)) = .ok x := by
  rw [word64, word_of_le _ (Nat.le_sub_one_of_lt x.toNat_lt)]
  exact congrArg _ (UInt64.ofNat_toNat)

end JsonValue

end BodyLength
