import BodyLength.Json.Pretty
import BodyLength.Report.Basic
/-!
# Entries as JSON

An entry is an object that holds its file and the fields of its report. When it is read,
fields that it does not need are ignored. The fields of the report are looked at when the
object is complete, so what is wrong with them shows behind it.
-/

namespace BodyLength

namespace FunctionReport

def members (r : FunctionReport) : List (String × JsonValue) :=
  [("name", .scalar (.text r.name)),
   ("signature_line", .scalar (.integer r.signatureLine.toNat)),
   ("close_line", .scalar (.integer r.closeLine.toNat)),
   ("anchor_line", .scalar (.integer r.anchorLine.toNat)),
   ("line_count", .scalar (.integer r.lineCount.toNat)),
   ("severity", .scalar (.text r.severity.name))]

/-- The fields of a report that have been read. -/
structure Fields where
  name : Option String := none
  signatureLine : Option UInt32 := none
  closeLine : Option UInt32 := none
  anchorLine : Option UInt32 := none
  lineCount : Option UInt64 := none
  severity : Option Severity := none

namespace Fields

/-- Reads a field that has not been read before. -/
def fill {α : Type} (key : String) (old : Option α) (read : Except JsonFault α) :
    Except JsonFault (Option α) :=
  match old with
  | some _ => .error (.duplicateField key)
  | none => read.map some

/-- Reads a member, if it is a field of a report. -/
def add (f : Fields) (key : String) (v : JsonValue) : Except JsonFault Fields :=
  match key with
  | "name" => do return { f with name := ← fill key f.name v.string }
  | "signature_line" => do return { f with signatureLine := ← fill key f.signatureLine v.word32 }
  | "close_line" => do return { f with closeLine := ← fill key f.closeLine v.word32 }
  | "anchor_line" => do return { f with anchorLine := ← fill key f.anchorLine v.word32 }
  | "line_count" => do return { f with lineCount := ← fill key f.lineCount v.word64 }
  | "severity" => do
    return { f with severity := ← fill key f.severity (v.variant Severity.name Severity.all) }
  | _ => .ok f

def require {α : Type} (key : String) : Option α → Except JsonFault α
  | some x => .ok x
  | none => .error (.missingField key)

def report (f : Fields) : Except JsonFault FunctionReport := do
  return {
    name := ← require "name" f.name
    signatureLine := ← require "signature_line" f.signatureLine
    closeLine := ← require "close_line" f.closeLine
    anchorLine := ← require "anchor_line" f.anchorLine
    lineCount := ← require "line_count" f.lineCount
    severity := ← require "severity" f.severity }

end Fields

def ofMembers (ms : List (String × JsonValue)) : Except JsonFault FunctionReport := do
  let fields ← ms.foldlM (fun f (k, v) => f.add k v) ({} : Fields)
  fields.report

end FunctionReport

namespace Entry

def value (e : Entry) : JsonValue :=
  .object (("file", .scalar (.text e.file)) :: e.report.members)

/-- The entries as the text of a list. -/
def render (es : List Entry) : String := (JsonValue.array (es.map value)).pretty

/-- Splits the members of an entry into its file and the others. -/
def readMembers (file : Option String) :
    List (JsonKey × JsonNode) → Except JsonError (Option String × List (String × JsonValue))
  | [] => .ok (file, [])
  | (k, n) :: rest =>
    if k.name = "file" then
      match file with
      | some _ => .error ⟨.duplicateField k.name, k.settled⟩
      | none => do
        let s ← n.readString
        readMembers (some s) rest
    else do
      let v ← n.readValue
      let (file, others) ← readMembers file rest
      return (file, (k.name, v) :: others)

def read : JsonNode → Except JsonError Entry
  | .object _ members tail => do
    let (file, others) ← readMembers none members
    let stop ← JsonNode.readTail tail
    match file with
    | none => .error ⟨.missingField "file", stop⟩
    | some file =>
      match FunctionReport.ofMembers others with
      | .error f => .error ⟨f, stop⟩
      | .ok report => .ok { file, report }
  | n => .error (n.unexpected .entry)

/-- The entries of a text. -/
def parse (text : String) : Except JsonError (List Entry) :=
  JsonDocument.decode (JsonNode.readList read) text

end Entry

end BodyLength
