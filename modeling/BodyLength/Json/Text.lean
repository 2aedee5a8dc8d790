import BodyLength.Json.Lexeme
/-!
# Strings in a JSON text

A string ends at the first quote that is not escaped. Control characters must be escaped; an
escape gives a character of its own, or by one or two units of UTF-16.
-/

namespace BodyLength

namespace JsonLexeme

def hexValue? (c : Char) : Option Nat :=
  if '0' ≤ c ∧ c ≤ '9' then some (c.toNat - 48)
  else if 'a' ≤ c ∧ c ≤ 'f' then some (c.toNat - 87)
  else if 'A' ≤ c ∧ c ≤ 'F' then some (c.toNat - 55)
  else none

/-- The position `n` bytes on, if the text has that many; the last of them may be in the
middle of a character. -/
def afterBytes? (n : Nat) (p : JsonPosition) : List Char → Option JsonPosition
  | [] => if n = 0 then some p else none
  | c :: s =>
    if n = 0 then some p
    else if n < c.utf8Size then some (p.right n)
    else afterBytes? (n - c.utf8Size) (p.after c) s

/-- Where the text ends. -/
def endOf (p : JsonPosition) (s : List Char) : JsonPosition := s.foldl JsonPosition.after p

/-- A unit of a `\u` escape: four bytes that must be hexadecimal digits. -/
def unit (p : JsonPosition) (s : List Char) : Except JsonError Nat :=
  match s with
  | a :: b :: c :: d :: _ =>
    match hexValue? a, hexValue? b, hexValue? c, hexValue? d with
    | some a, some b, some c, some d => .ok (((a * 16 + b) * 16 + c) * 16 + d)
    | _, _, _, _ => malformed
  | _ => malformed
where
  /-- The fault of a unit that is none. -/
  malformed : Except JsonError Nat :=
    match afterBytes? 4 p s with
    | some q => .error ⟨.invalidEscape, q⟩
    | none => .error ⟨.endInString, endOf p s⟩

def isHighSurrogate (u : Nat) : Bool := 0xD800 ≤ u && u ≤ 0xDBFF

def isLowSurrogate (u : Nat) : Bool := 0xDC00 ≤ u && u ≤ 0xDFFF

def joinSurrogates (high low : Nat) : Char :=
  Char.ofNat ((high - 0xD800) * 0x400 + (low - 0xDC00) + 0x10000)

/-- The character of a `\u` escape, from behind the letter, and how many characters of the
text it takes: a unit, or a high surrogate with the escape of a low one. -/
def escapedUnit (p : JsonPosition) (s : List Char) : Except JsonError (Char × Nat) := do
  let u ← unit p s
  if isLowSurrogate u then .error ⟨.loneSurrogate, p.right 4⟩
  else if isHighSurrogate u then
    let p := p.right 4
    match s.drop 4 with
    | [] => .error ⟨.endInString, p⟩
    | '\\' :: [] => .error ⟨.endInString, p.right 1⟩
    | '\\' :: 'u' :: s =>
      let low ← unit (p.right 2) s
      if isLowSurrogate low then .ok (joinSurrogates u low, 10)
      else .error ⟨.loneSurrogate, p.right 6⟩
    | '\\' :: c :: _ => .error ⟨.unfinishedSurrogate, (p.right 1).afterByte c⟩
    | c :: _ => .error ⟨.unfinishedSurrogate, p.afterByte c⟩
  else .ok (Char.ofNat u, 4)

/-- The character that a letter stands for behind a backslash. -/
def shortEscape? (c : Char) : Option Char :=
  match c with
  | '"' => some '"'
  | '\\' => some '\\'
  | '/' => some '/'
  | 'b' => some '\x08'
  | 'f' => some '\x0c'
  | 'n' => some '\n'
  | 'r' => some '\r'
  | 't' => some '\t'
  | _ => none

/-- Reads a string, from behind its quote; `read` holds its characters so far, in reverse. -/
def string (read : List Char) (p : JsonPosition) : List Char → JsonLexeme
  | [] => fault .endInString p
  | '"' :: s => ⟨.ok (.text (String.ofList read.reverse)), s, p.right 1⟩
  | '\\' :: [] => fault .endInString (p.right 1)
  | '\\' :: 'u' :: s =>
    match escapedUnit (p.right 2) s with
    | .error e => ⟨.error e, [], p⟩
    | .ok (c, n) => string (c :: read) (p.right (2 + n)) (s.drop n)
  | '\\' :: c :: s =>
    match shortEscape? c with
    | none => fault .invalidEscape ((p.right 1).afterByte c)
    | some d => string (d :: read) (p.right 2) s
  | c :: s =>
    if c.toNat < 0x20 then fault .controlCharacter (p.afterByte c)
    else string (c :: read) (p.after c) s
termination_by s => s.length
decreasing_by
  · simp only [List.length_drop, List.length_cons]
    omega
  · exact Nat.lt_succ_of_lt (Nat.lt_succ_self _)
  · exact Nat.lt_succ_self _

theorem length_rest_string (read : List Char) (p : JsonPosition) (s : List Char) :
    (string read p s).rest.length ≤ s.length := by
  fun_induction string read p s with
  | case1 => simp [fault]
  | case2 => simp
  | case3 => simp [fault]
  | case4 => simp
  | case5 read p s c n _ ih =>
    simp only [List.length_drop] at ih
    simp only [List.length_cons]
    omega
  | case6 => simp [fault]
  | case7 read p c s _ d _ ih => exact Nat.le_succ_of_le (Nat.le_succ_of_le ih)
  | case8 => simp [fault]
  | case9 read p c s _ _ _ _ _ ih => exact Nat.le_succ_of_le ih

end JsonLexeme

end BodyLength
