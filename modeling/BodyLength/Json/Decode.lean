import BodyLength.Json.Tree
/-!
# Reading values of known types

Readers go through a tree in the order of its text and stop at the first thing that is not
as they need it: a fault, or a value of another type. The error of a wrong scalar is behind
it, that of a wrong list or object in front of it.
-/

namespace BodyLength

namespace JsonNode

/-- The error of a reader that needs something else. -/
def unexpected (expected : JsonExpectation) : JsonNode → JsonError
  | scalar x _ stop => ⟨.invalidType (.scalar x) expected, stop⟩
  | array start _ _ => ⟨.invalidType .sequence expected, start⟩
  | object start _ _ => ⟨.invalidType .map expected, start⟩
  | fault _ e => e

def readString : JsonNode → Except JsonError String
  | scalar (.text s) _ _ => .ok s
  | n => .error (n.unexpected .string)

def readBool : JsonNode → Except JsonError Bool
  | scalar (.bool b) _ _ => .ok b
  | n => .error (n.unexpected .boolean)

def readWord64 : JsonNode → Except JsonError UInt64
  | scalar (.integer k) _ stop =>
    if 0 ≤ k then .ok k.toNat.toUInt64
    else .error ⟨.invalidValue (.scalar (.integer k)) .word64, stop⟩
  | n => .error (n.unexpected .word64)

/-- Reads a value that may be null. -/
def readOptional {α : Type} (reader : JsonNode → Except JsonError α) :
    JsonNode → Except JsonError (Option α)
  | scalar .null _ _ => .ok none
  | n => (reader n).map some

/-- Passes on the error of a list or an object that breaks off. -/
def readTail : JsonTail → Except JsonError JsonPosition
  | .closed stop => .ok stop
  | .broken e => .error e

def readList {α : Type} (reader : JsonNode → Except JsonError α) :
    JsonNode → Except JsonError (List α)
  | array _ items tail => do
    let xs ← items.mapM reader
    let _ ← readTail tail
    return xs
  | n => .error (n.unexpected .sequence)

end JsonNode

/-- A JSON value without positions. -/
inductive JsonValue where
  | scalar (x : JsonScalar)
  | array (items : List JsonValue)
  | object (members : List (String × JsonValue))

namespace JsonNode

mutual

/-- The value of a tree without faults, or its first fault. -/
def readValue : JsonNode → Except JsonError JsonValue
  | scalar x _ _ => .ok (.scalar x)
  | array _ items tail => do
    let xs ← readItems items
    let _ ← readTail tail
    return .array xs
  | object _ members tail => do
    let xs ← readMembers members
    let _ ← readTail tail
    return .object xs
  | fault _ e => .error e

def readItems : List JsonNode → Except JsonError (List JsonValue)
  | [] => .ok []
  | n :: ns => do
    let x ← readValue n
    let xs ← readItems ns
    return x :: xs

def readMembers : List (JsonKey × JsonNode) → Except JsonError (List (String × JsonValue))
  | [] => .ok []
  | (k, n) :: ns => do
    let x ← readValue n
    let xs ← readMembers ns
    return (k.name, x) :: xs

end

end JsonNode

namespace JsonValue

def shape : JsonValue → JsonShape
  | scalar x => .scalar x
  | array _ => .sequence
  | object _ => .map

def string : JsonValue → Except JsonFault String
  | scalar (.text s) => .ok s
  | v => .error (.invalidType v.shape .string)

/-- Reads an integer from 0 to `limit`. -/
def word (limit : Nat) (expected : JsonExpectation) : JsonValue → Except JsonFault Nat
  | scalar (.integer k) =>
    if 0 ≤ k ∧ k ≤ limit then .ok k.toNat
    else .error (.invalidValue (.scalar (.integer k)) expected)
  | v => .error (.invalidType v.shape expected)

def word32 (v : JsonValue) : Except JsonFault UInt32 :=
  (v.word (UInt32.size - 1) .word32).map Nat.toUInt32

def word64 (v : JsonValue) : Except JsonFault UInt64 :=
  (v.word (UInt64.size - 1) .word64).map Nat.toUInt64

/-- Reads nothing: null or an empty object. -/
def unit : JsonValue → Except JsonFault Unit
  | scalar .null => .ok ()
  | object [] => .ok ()
  | v => .error (.invalidType v.shape .unit)

/-- Reads one of a few names, given as a text or as the only key of an object that holds
nothing else. -/
def variant {α : Type} (name : α → String) (all : List α) : JsonValue → Except JsonFault α
  | scalar (.text s) => find s
  | object [(s, v)] => do
    let x ← find s
    v.unit
    return x
  | object _ => .error (.invalidValue .map .singleKeyMap)
  | v => .error (.invalidType v.shape .stringOrMap)
where
  find (s : String) : Except JsonFault α :=
    match all.find? fun x => name x = s with
    | some x => .ok x
    | none => .error (.unknownVariant s (all.map name))

end JsonValue

end BodyLength
