import BodyLength.Config.Basic
import BodyLength.Json.Decode
/-!
# Reading configurations

A configuration is an object whose members are fields, each at most once and in any order,
or a list that gives the fields in their fixed order and may be shorter.
-/

namespace BodyLength

/-- A field of a configuration: its name and how its value is taken over. -/
structure ConfigField where
  name : String
  set : JsonNode → Config → Except JsonError Config

namespace Config

open JsonNode in
/-- The fields in their fixed order. -/
def fields : List ConfigField :=
  [⟨"include", fun n c => do return { c with includes := ← n.readList readString }⟩,
   ⟨"exclude", fun n c => do return { c with excludes := ← n.readList readString }⟩,
   ⟨"extensions", fun n c => do return { c with extensions := ← n.readList readString }⟩,
   ⟨"max_lines", fun n c => do return { c with maxLines := ← n.readOptional readWord64 }⟩,
   ⟨"neutral_color", fun n c => do return { c with neutralColor := ← n.readOptional readString }⟩,
   ⟨"warning_color", fun n c => do return { c with warningColor := ← n.readOptional readString }⟩,
   ⟨"lenient_braces", fun n c => do return { c with lenientBraces := ← n.readOptional readBool }⟩,
   ⟨"literal_aware_signatures",
    fun n c => do return { c with literalAwareSignatures := ← n.readOptional readBool }⟩,
   ⟨"warnings_only", fun n c => do return { c with warningsOnly := ← n.readOptional readBool }⟩,
   ⟨"min_lines", fun n c => do return { c with minLines := ← n.readOptional readWord64 }⟩,
   ⟨"top", fun n c => do return { c with top := ← n.readOptional readWord64 }⟩]

def fieldNames : List String := fields.map ConfigField.name

/-- Takes over the members of an object, of which the fields `seen` came before. -/
def readMembers (seen : List String) (c : Config) :
    List (JsonKey × JsonNode) → Except JsonError Config
  | [] => .ok c
  | (k, n) :: rest =>
    match fields.find? fun f => f.name = k.name with
    | none => .error ⟨.unknownField k.name fieldNames, k.settled⟩
    | some f =>
      if seen.contains k.name then .error ⟨.duplicateField k.name, k.settled⟩
      else do
        let c ← f.set n c
        readMembers (k.name :: seen) c rest

/-- Takes over the items of a list as the given fields. Behind the last field the list must
end, whatever else comes. -/
def readItems (tail : JsonTail) (c : Config) :
    List ConfigField → List JsonNode → Except JsonError Config
  | _ :: _, [] => do
    let _ ← JsonNode.readTail tail
    return c
  | f :: fs, n :: ns => do
    let c ← f.set n c
    readItems tail c fs ns
  | [], n :: _ => .error ⟨.trailingCharacters, n.peek⟩
  | [], [] =>
    match tail with
    | .broken ⟨.expectedCommaOrBracket, p⟩ => .error ⟨.trailingCharacters, p⟩
    | .broken e => .error e
    | .closed _ => .ok c

def read : JsonNode → Except JsonError Config
  | .object _ members tail => do
    let c ← readMembers [] {} members
    let _ ← JsonNode.readTail tail
    return c
  | .array _ items tail => readItems tail {} fields items
  | n => .error (n.unexpected .config)

/-- The configuration that a text holds. -/
def parse (text : String) : Except JsonError Config := JsonDocument.decode read text

end Config

end BodyLength
