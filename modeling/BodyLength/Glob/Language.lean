import BodyLength.Glob.Pattern
/-!
# What a glob pattern matches

A pattern stands for a set of byte strings, described by a `PathExpr`: a regular expression
without repetition except for "any bytes at all". Whether a path is in the set is decided
by partial derivatives, reading the path byte by byte.

A character that takes several bytes stands in a class for its bytes one by one. An
alternative that is empty is left out, and so are braces that hold nothing else.
-/

namespace BodyLength

/-- A set of bytes: those in one of the ranges, or in none of them. -/
structure ByteSet where
  negated : Bool := false
  ranges : List (UInt8 × UInt8)
deriving DecidableEq, Repr

namespace ByteSet

def single (b : UInt8) : ByteSet := { ranges := [(b, b)] }

def contains (s : ByteSet) (b : UInt8) : Bool :=
  s.ranges.any (fun (lo, hi) => lo ≤ b && b ≤ hi) != s.negated

def full : ByteSet := { negated := true, ranges := [] }

/-- The ranges of bytes that a range of characters stands for. -/
def rangesOf (lo hi : Char) : List (UInt8 × UInt8) :=
  let pair (b : UInt8) := (b, b)
  let los := String.utf8EncodeChar lo
  let his := String.utf8EncodeChar hi
  if lo = hi then los.map pair
  else los.dropLast.map pair ++ [(los.getLast?.getD 0, his.head?.getD 0)] ++ his.tail.map pair

end ByteSet

inductive PathExpr where
  /-- No path. -/
  | none
  /-- The empty path. -/
  | empty
  /-- One byte of a set. -/
  | byte (s : ByteSet)
  /-- Any bytes at all. -/
  | anything
  | seq (a b : PathExpr)
  | alt (a b : PathExpr)
deriving DecidableEq, Repr

namespace PathExpr

def nullable : PathExpr → Bool
  | none => false
  | empty => true
  | byte _ => false
  | anything => true
  | seq a b => a.nullable && b.nullable
  | alt a b => a.nullable || b.nullable

/-- `a` and then `b`, without an empty `a`. -/
def andThen (a b : PathExpr) : PathExpr :=
  match a with
  | empty => b
  | _ => seq a b

/-- Expressions for what may follow a byte. -/
def derivatives (x : UInt8) : PathExpr → List PathExpr
  | none => []
  | empty => []
  | byte s => if s.contains x then [empty] else []
  | anything => [anything]
  | seq a b =>
    (a.derivatives x).map (·.andThen b) ++ if a.nullable then b.derivatives x else []
  | alt a b => a.derivatives x ++ b.derivatives x

/-- Whether a path is in one of the sets. -/
def matchAny : List PathExpr → List UInt8 → Bool
  | es, [] => es.any nullable
  | es, x :: path => matchAny (es.flatMap (derivatives x)).eraseDups path

/-- Whether a path is in the set. -/
def matches? (e : PathExpr) (path : List UInt8) : Bool := matchAny [e] path

def slash : PathExpr := byte (.single 0x2F)

def seqAll : List PathExpr → PathExpr
  | [] => empty
  | e :: es => e.andThen (seqAll es)

def altAll : List PathExpr → PathExpr
  | [] => none
  | [e] => e
  | e :: es => alt e (altAll es)

/-- Directories in front, each with its slash, or a single slash. -/
def leadingTree : PathExpr := alt (alt empty slash) (seq anything slash)

/-- A slash, or directories between two slashes. -/
def innerTree : PathExpr := alt slash (seq slash (seq anything slash))

mutual

/-- What a token stands for; there is nothing for braces that hold only empty alternatives. -/
def ofToken? : GlobToken → Option PathExpr
  | .literal c => some (seqAll ((String.utf8EncodeChar c).map fun b => byte (.single b)))
  | .any => some (byte .full)
  | .star => some anything
  | .leadingTree => some leadingTree
  | .innerTree => some innerTree
  | .trailingTree => some (seq slash anything)
  | .set negated ranges =>
    some (byte ⟨negated, ranges.flatMap fun (lo, hi) => ByteSet.rangesOf lo hi⟩)
  | .alternatives branches =>
    match ofBranches branches with
    | [] => .none
    | es => some (altAll es)

/-- What a list of tokens stands for, if there is anything. -/
def ofTokens? : List GlobToken → Option PathExpr
  | [] => .none
  | t :: ts =>
    match ofToken? t, ofTokens? ts with
    | .none, e => e
    | e, .none => e
    | some a, some b => some (a.andThen b)

/-- What the alternatives that are not empty stand for. -/
def ofBranches : List (List GlobToken) → List PathExpr
  | [] => []
  | b :: bs => (ofTokens? b).toList ++ ofBranches bs

end

/-- What a whole pattern stands for. Two stars alone match everything. -/
def ofPattern : List GlobToken → PathExpr
  | [.leadingTree] => anything
  | ts => (ofTokens? ts).getD empty

end PathExpr

/-- A pattern that has been read. -/
structure Glob where
  pattern : String
  expr : PathExpr

namespace Glob

def ofPattern (pattern : String) : Except GlobError Glob :=
  match GlobToken.ofPattern pattern with
  | .error e => .error e
  | .ok tokens => .ok ⟨pattern, PathExpr.ofPattern tokens⟩

/-- Whether some glob of a set matches a path. -/
def matchAny (globs : List Glob) (path : List UInt8) : Bool :=
  globs.any fun g => g.expr.matches? path

end Glob

end BodyLength
