/-!
# Glob patterns

A pattern is read into a list of `GlobToken`s. Braces hold alternatives and may nest; a
backslash makes the next character literal. Two stars that fill a path component stand for
any number of directories, and mean something slightly different at the start, in the
middle and at the end of a pattern or an alternative; elsewhere they are two plain stars.
-/

namespace BodyLength

inductive GlobToken where
  | literal (c : Char)
  /-- One byte. -/
  | any
  /-- Any number of bytes, slashes included. -/
  | star
  /-- Any directories in front of what follows. -/
  | leadingTree
  /-- Any directories between what stands before and after. -/
  | innerTree
  /-- Everything below what stands before. -/
  | trailingTree
  /-- A character in one of the ranges, or in none of them. -/
  | set (negated : Bool) (ranges : List (Char × Char))
  | alternatives (branches : List (List GlobToken))

/-- What is wrong with a pattern. -/
inductive GlobFault where
  | unclosedClass
  | invalidRange (lo hi : Char)
  | unopenedAlternates
  | unclosedAlternates
  | danglingEscape
deriving DecidableEq, Repr

namespace GlobFault

def message : GlobFault → String
  | unclosedClass => "unclosed character class; missing ']'"
  | invalidRange lo hi => "invalid range; '" ++ lo.toString ++ "' > '" ++ hi.toString ++ "'"
  | unopenedAlternates =>
    "unopened alternate group; missing '\x7b' (maybe escape '\x7d' with '[\x7d]'?)"
  | unclosedAlternates =>
    "unclosed alternate group; missing '\x7d' (maybe escape '\x7b' with '[\x7b]'?)"
  | danglingEscape => "dangling '\\'"

end GlobFault

structure GlobError where
  pattern : String
  fault : GlobFault
deriving DecidableEq, Repr

namespace GlobError

def message (e : GlobError) : String :=
  "error parsing glob '" ++ e.pattern ++ "': " ++ e.fault.message

end GlobError

namespace GlobToken

/-- Whether a class is negated, and what follows. -/
def readNegation : List Char → Bool × List Char
  | '!' :: rest => (true, rest)
  | '^' :: rest => (true, rest)
  | rest => (false, rest)

theorem length_readNegation (s : List Char) : (readNegation s).2.length ≤ s.length := by
  unfold readNegation
  split <;> simp

/-- Reads the ranges of a class up to its bracket, and gives what is left of the pattern.
The ranges come in reverse. `inRange` says that a dash came just before; a bracket or a
dash is literal where it comes `first`, and so is a dash before the bracket. -/
def readClass (ranges : List (Char × Char)) (first inRange : Bool) :
    List Char → Except GlobFault (List (Char × Char) × List Char)
  | [] => .error .unclosedClass
  | c :: rest =>
    if first then readClass [(c, c)] false false rest
    else if c = ']' then .ok (if inRange then ('-', '-') :: ranges else ranges, rest)
    else if inRange then
      match ranges with
      | [] => readClass [(c, c)] false false rest
      | (lo, _) :: others =>
        if c < lo then .error (.invalidRange lo c)
        else readClass ((lo, c) :: others) false false rest
    else if c = '-' then readClass ranges false true rest
    else readClass ((c, c) :: ranges) false false rest

theorem length_readClass {ranges : List (Char × Char)} {first inRange : Bool} {s : List Char}
    {x : List (Char × Char) × List Char} (h : readClass ranges first inRange s = .ok x) :
    x.2.length ≤ s.length := by
  fun_induction readClass ranges first inRange s <;> simp_all <;> grind

/-- The alternatives read so far of a group that is still open. -/
structure Group where
  /-- The finished branches, the last one first. -/
  branches : List (List GlobToken) := []
  /-- The tokens of the branch being read, the last one first. -/
  tokens : List GlobToken := []

/-- How far a pattern has been read: its innermost open group and those around it. The
outermost group is the pattern itself. -/
structure Reading where
  group : Group := {}
  outer : List Group := []

namespace Reading

def inAlternates (r : Reading) : Bool := !r.outer.isEmpty

def push (r : Reading) (t : GlobToken) : Reading :=
  { r with group := { r.group with tokens := t :: r.group.tokens } }

def pushStars (r : Reading) : Reading := (r.push .star).push .star

def openGroup (r : Reading) : Reading := { group := {}, outer := r.group :: r.outer }

def nextBranch (r : Reading) : Reading :=
  { r with group := { branches := r.group.tokens.reverse :: r.group.branches } }

/-- Closes the innermost group, unless it is the pattern itself. -/
def closeGroup? (r : Reading) : Option Reading :=
  match r.outer with
  | [] => none
  | g :: outer =>
    let branches := (r.group.tokens.reverse :: r.group.branches).reverse
    some { group := { g with tokens := .alternatives branches :: g.tokens }, outer }

/-- Two stars behind other tokens of the branch take the place of the slash before them,
and add nothing to two stars that stand for any directories already. -/
def pushTree (r : Reading) (tree : GlobToken) : Reading :=
  match r.group.tokens with
  | .leadingTree :: _ | .trailingTree :: _ => r
  | _ :: tokens => { r with group := { r.group with tokens := tree :: tokens } }
  | [] => r.push tree

end Reading

/-- Reads two stars that come behind the character `before` and in front of `rest`; gives
the pattern that is left and the character before it. -/
def readStars (before : Option Char) (r : Reading) (rest : List Char) :
    Reading × Char × List Char :=
  if r.group.tokens.isEmpty then
    match rest with
    | [] => (r.push .leadingTree, '*', [])
    | '/' :: rest => (r.push .leadingTree, '/', rest)
    | _ => (r.pushStars, '*', rest)
  else if before ≠ some '/' ∧
      (!r.inAlternates ∨ (before ≠ some ',' ∧ before ≠ some '\x7b')) then
    (r.pushStars, '*', rest)
  else
    match rest with
    | [] => (r.pushTree .trailingTree, '*', [])
    | '/' :: rest => (r.pushTree .innerTree, '/', rest)
    | c :: _ =>
      if (c = ',' ∨ c = '\x7d') ∧ r.inAlternates then (r.pushTree .trailingTree, '*', rest)
      else (r.pushStars, '*', rest)

theorem length_readStars (before : Option Char) (r : Reading) (rest : List Char) :
    (readStars before r rest).2.2.length ≤ rest.length := by
  unfold readStars
  repeat' split
  all_goals simp

/-- Reads the rest of a pattern, which comes behind the character `before`. -/
def readFrom (before : Option Char) (r : Reading) :
    List Char → Except GlobFault (List GlobToken)
  | [] => if r.inAlternates then .error .unclosedAlternates else .ok r.group.tokens.reverse
  | c :: rest =>
    if c = '?' then readFrom (some c) (r.push .any) rest
    else if c = '*' then
      match _h : rest with
      | '*' :: rest' =>
        let next := readStars before r rest'
        readFrom (some next.2.1) next.1 next.2.2
      | _ => readFrom (some c) (r.push .star) rest
    else if c = '[' then
      match _h : readClass [] true false (readNegation rest).2 with
      | .error e => .error e
      | .ok (ranges, rest') =>
        readFrom (some ']') (r.push (.set (readNegation rest).1 ranges.reverse)) rest'
    else if c = '\x7b' then readFrom (some c) r.openGroup rest
    else if c = '\x7d' then
      match r.closeGroup? with
      | none => .error .unopenedAlternates
      | some r => readFrom (some c) r rest
    else if c = ',' ∧ r.inAlternates then readFrom (some c) r.nextBranch rest
    else if c = '\\' then
      match rest with
      | [] => .error .danglingEscape
      | d :: rest => readFrom (some d) (r.push (.literal d)) rest
    else readFrom (some c) (r.push (.literal c)) rest
termination_by s => s.length
decreasing_by
  · simp
  · have := length_readStars before r rest'
    simp only [List.length_cons]
    omega
  · simp [_h]
  · have : rest'.length ≤ _ := length_readClass _h
    have := length_readNegation rest
    simp only [List.length_cons]
    omega
  · simp
  · simp
  · simp
  · simp only [List.length_cons]
    omega
  · simp

/-- The tokens of a pattern. -/
def ofPattern (pattern : String) : Except GlobError (List GlobToken) :=
  match readFrom none {} pattern.toList with
  | .error fault => .error ⟨pattern, fault⟩
  | .ok tokens => .ok tokens

end GlobToken

end BodyLength
