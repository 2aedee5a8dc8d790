import BodyLength.Json.Number
import BodyLength.Json.Text
/-!
# Tokens of a JSON text

`JsonToken.scan` cuts a text into tokens. Each remembers the position of its first byte and
the position behind it. A scalar that is malformed becomes a `broken` token, and nothing
after it is looked at. Whether a token may stand where it does is not decided here.
-/

namespace BodyLength

inductive JsonTokenKind where
  | leftBracket
  | rightBracket
  | leftBrace
  | rightBrace
  | colon
  | comma
  | scalar (x : JsonScalar)
  /-- A malformed scalar; `quoted` says that it began as a string. -/
  | broken (quoted : Bool) (e : JsonError)
  /-- A byte that begins no token. -/
  | stray

structure JsonToken where
  kind : JsonTokenKind
  start : JsonPosition
  stop : JsonPosition

namespace JsonLexeme

/-- Reads the scalar that begins with `c`, unless none does. -/
def scalar? (p : JsonPosition) (c : Char) (s : List Char) : Option JsonLexeme :=
  match c with
  | '"' => some (string [] (p.right 1) s)
  | '-' => some (number true (p.right 1) s)
  | 'n' => some (word .null (p.right 1) ['u', 'l', 'l'] s)
  | 't' => some (word (.bool true) (p.right 1) ['r', 'u', 'e'] s)
  | 'f' => some (word (.bool false) (p.right 1) ['a', 'l', 's', 'e'] s)
  | _ => if c.isDigit then some (number false p (c :: s)) else none

theorem length_rest_of_scalar? {p : JsonPosition} {c : Char} {s : List Char} {l : JsonLexeme}
    (h : scalar? p c s = some l) : l.rest.length ≤ s.length := by
  unfold scalar? at h
  split at h
  · cases h
    exact length_rest_string ..
  · cases h
    cases s with
    | nil => simp [number, fault]
    | cons d s => exact Nat.le_succ_of_le (length_rest_number ..)
  · cases h
    exact length_rest_word ..
  · cases h
    exact length_rest_word ..
  · cases h
    exact length_rest_word ..
  · split at h
    · cases h
      exact length_rest_number ..
    · cases h

end JsonLexeme

namespace JsonToken

def isSpace (c : Char) : Bool := c = ' ' || c = '\n' || c = '\t' || c = '\r'

def mark? (c : Char) : Option JsonTokenKind :=
  match c with
  | '[' => some .leftBracket
  | ']' => some .rightBracket
  | '\x7b' => some .leftBrace
  | '\x7d' => some .rightBrace
  | ':' => some .colon
  | ',' => some .comma
  | _ => none

/-- The tokens of a text that begins at `p`, and where it ends. Of a text with a malformed
scalar, only the tokens through that one. -/
def scan (p : JsonPosition) : List Char → List JsonToken × JsonPosition
  | [] => ([], p)
  | c :: s =>
    if isSpace c then scan (p.after c) s
    else
      match mark? c with
      | some kind =>
        let (tokens, finish) := scan (p.right 1) s
        (⟨kind, p, p.right 1⟩ :: tokens, finish)
      | none =>
        match _h : JsonLexeme.scalar? p c s with
        | none => ([⟨.stray, p, p.afterByte c⟩], p)
        | some l =>
          match l.result with
          | .error e => ([⟨.broken (c = '"') e, p, e.position⟩], p)
          | .ok x =>
            let (tokens, finish) := scan l.position l.rest
            (⟨.scalar x, p, l.position⟩ :: tokens, finish)
termination_by s => s.length
decreasing_by
  · exact Nat.lt_succ_self _
  · exact Nat.lt_succ_self _
  · exact Nat.lt_succ_of_le (JsonLexeme.length_rest_of_scalar? _h)

end JsonToken

end BodyLength
