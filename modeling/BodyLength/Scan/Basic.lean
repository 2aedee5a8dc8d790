import BodyLength.Report.Basic
import BodyLength.Scan.Body
import BodyLength.Text.Lines
/-!
# Scanning a text

A scan finds the signature candidates of a text, looks for a body behind each and reports
on those that have one, in the order of their signatures. Nothing in it can fail: a
candidate without a body, or with one that never closes, yields no report.

A scan may be interrupted. It then has no result at all, so `scanUntil` gives either what
`scan` gives or nothing.
-/

namespace BodyLength

structure ScanOptions where
  /-- How many lines a body may have without being a warning. -/
  maxLines : UInt64 := 25
  bracePlacement : BracePlacement := .nextLine
  signatureMode : SignatureMode := .baseline
deriving DecidableEq, Repr

/-- What a list of candidates came to. -/
structure Survey where
  /-- The bodies found. -/
  bodies : List Body := []
  /-- How many bodies never close. -/
  unbalanced : Nat := 0

namespace Survey

def addBody (b : Body) (s : Survey) : Survey := { s with bodies := b :: s.bodies }

def addUnbalanced (s : Survey) : Survey := { s with unbalanced := s.unbalanced + 1 }

/-- Looks for the bodies of some candidates, after `asked` questions. There is one question
per candidate, besides those of each search for a closing brace. -/
def ofSignatures (placement : BracePlacement) (interrupt : Interrupt) (asked : Nat) :
    List Signature → Option Survey × Nat
  | [] => (some {}, asked)
  | x :: xs =>
    if interrupt.stop asked then (none, asked + 1)
    else
      match placement.locate? x.behind with
      | none => ofSignatures placement interrupt (asked + 1) xs
      | some brace =>
        match BraceMatch.search interrupt (asked + 1) brace with
        | (.interrupted, asked) => (none, asked)
        | (.unbalanced, asked) =>
          let (rest, asked) := ofSignatures placement interrupt asked xs
          (rest.map addUnbalanced, asked)
        | (.closed close, asked) =>
          let (rest, asked) := ofSignatures placement interrupt asked xs
          (rest.map (addBody ⟨x, brace, close⟩), asked)

end Survey

/-- The report on a body of a text with the given lines. -/
def Body.report (lines : LineIndex) (maxLines : UInt64) (x : Body) : FunctionReport :=
  let closeLine := lines.lineOf x.close
  { name := x.signature.name
    signatureLine := lines.lineOf x.signature.start
    closeLine := closeLine
    anchorLine := closeLine + 1
    lineCount := x.lineCount.toUInt64
    severity := .classify x.lineCount.toUInt64 maxLines }

/-- The signature candidates of a text, from left to right. -/
def signatures (mode : SignatureMode) (text : String) : List Signature :=
  Signature.allFrom mode (.start (bytes text))

/-- The bodies of a text, and how many questions it took to find them. -/
def surveyUntil (text : String) (options : ScanOptions) (interrupt : Interrupt) :
    Option Survey × Nat :=
  Survey.ofSignatures options.bracePlacement interrupt 0 (signatures options.signatureMode text)

/-- The reports on a text unless the scan is interrupted, and how many questions it put. -/
def scanUntil (text : String) (options : ScanOptions) (interrupt : Interrupt) :
    Option (List FunctionReport) × Nat :=
  let lines := LineIndex.ofBytes (bytes text)
  let (survey, asked) := surveyUntil text options interrupt
  (survey.map fun s => s.bodies.map (Body.report lines options.maxLines), asked)

/-- The reports on a text. -/
def scan (text : String) (options : ScanOptions) : List FunctionReport :=
  (scanUntil text options .never).1.getD []

/-- The reports on a text under the default options with another threshold. -/
def scanWithMaxLines (text : String) (maxLines : UInt64) : List FunctionReport :=
  scan text { maxLines }

/-- How many candidates a finished scan has seen, how many functions it reports and how many
bodies never close. -/
structure ScanTally where
  candidates : Nat
  functions : Nat
  unbalanced : Nat
deriving DecidableEq, Repr

def ScanTally.ofText (text : String) (options : ScanOptions) : ScanTally :=
  let survey := (surveyUntil text options .never).1.getD {}
  { candidates := (signatures options.signatureMode text).length
    functions := survey.bodies.length
    unbalanced := survey.unbalanced }

end BodyLength
