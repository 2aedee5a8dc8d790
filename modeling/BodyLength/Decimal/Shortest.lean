/-!
# The shortest decimal of a floating point number

A finite number is `m * 2 ^ q`. The reals that round to it lie between the points halfway
to its neighbours, which belong to them when `m` is even. Of the decimals among these
reals, the one with the fewest digits is chosen, then the one nearest to the number.

All comparisons are exact: a number is kept as a fraction of naturals, and so are the two
ends of its interval.
-/

namespace BodyLength

/-- The reals that round to a positive number, with the number itself among them; all are
numerators over `den`. -/
structure Rounding where
  low : Nat
  value : Nat
  high : Nat
  den : Nat
  /-- Whether the two ends round to the number. -/
  closed : Bool

/-- A decimal `digits * 10 ^ exponent`. -/
structure Decimal where
  digits : Nat
  exponent : Int
deriving DecidableEq, Repr

/-- A power of ten. -/
def tenTo (n : Nat) : Nat := Nat.pow 10 n

namespace Rounding

/-- The interval of the absolute value of a finite number with the given bits. The neighbour
below a power of two is half as far away as the one above. -/
def ofBits (bits : UInt64) : Rounding :=
  let biased := ((bits >>> 52) &&& 0x7FF).toNat
  let fraction := (bits &&& 0xFFFFFFFFFFFFF).toNat
  let m := if biased = 0 then fraction else Nat.pow 2 52 + fraction
  let q : Int := if biased = 0 then -1074 else (biased : Int) - 1075
  let below := if fraction = 0 ∧ biased > 1 then 1 else 2
  let scale := Nat.pow 2 q.toNat
  { low := (4 * m - below) * scale
    value := 4 * m * scale
    high := (4 * m + 2) * scale
    den := 4 * Nat.pow 2 (-q).toNat
    closed := m % 2 = 0 }

/-- Whether `digits * 10 ^ exponent` rounds to the number. -/
def admits (r : Rounding) (d : Decimal) : Bool :=
  let x := d.digits * tenTo d.exponent.toNat * r.den
  let down := tenTo (-d.exponent).toNat
  if r.closed then r.low * down ≤ x && x ≤ r.high * down
  else r.low * down < x && x < r.high * down

/-- The exponent of the first digit of the number. -/
def magnitude (r : Rounding) : Int :=
  let digitCount (n : Nat) : Nat := (Nat.toDigits 10 n).length
  if r.den ≤ r.value then (digitCount (r.value / r.den) : Int) - 1
  else
    let k := digitCount (r.den / r.value)
    if r.den ≤ r.value * tenTo (k - 1) then -((k : Int) - 1) else -(k : Int)

/-- The decimal with a given exponent that rounds to the number and is nearest to it, if
there is one. Of two that are equally near, the even one is chosen. -/
def nearest? (r : Rounding) (exponent : Int) : Option Decimal :=
  let num := r.value * tenTo (-exponent).toNat
  let den := r.den * tenTo exponent.toNat
  let below : Decimal := ⟨num / den, exponent⟩
  let above : Decimal := ⟨num / den + 1, exponent⟩
  match r.admits below, r.admits above with
  | false, false => none
  | true, false => some below
  | false, true => some above
  | true, true =>
    match compare (2 * (num % den)) den with
    | .lt => some below
    | .gt => some above
    | .eq => if below.digits % 2 = 0 then some below else some above

/-- The shortest decimal; seventeen digits are always enough. -/
def shortest (r : Rounding) : Decimal :=
  let candidates := (List.range 17).filterMap fun n => r.nearest? (r.magnitude - (n : Nat))
  candidates.head?.getD ⟨r.value / r.den, 0⟩

end Rounding

/-- How a floating point number is written: positionally when its first digit stands for a
power of ten from `-5` to `15`, otherwise with an exponent that has a sign. There is always a
digit behind the point of a positional number. -/
def Decimal.render (d : Decimal) : String :=
  let digits := ((Nat.toDigits 10 d.digits).reverse.dropWhile (· == '0')).reverse
  let e := d.exponent + (Nat.toDigits 10 d.digits).length - 1
  let zeros (n : Nat) : List Char := List.replicate n '0'
  if -5 ≤ e ∧ e < 0 then String.ofList ('0' :: '.' :: zeros ((-e).toNat - 1) ++ digits)
  else if 0 ≤ e ∧ e ≤ 15 then
    let whole := e.toNat + 1
    let behind := digits.drop whole
    String.ofList (digits.take whole ++ zeros (whole - digits.length) ++ '.' ::
      if behind.isEmpty then ['0'] else behind)
  else
    let behind := digits.drop 1
    String.ofList (digits.take 1 ++ (if behind.isEmpty then [] else '.' :: behind) ++
      'e' :: (if e < 0 then '-' else '+') :: Nat.toDigits 10 e.natAbs)

/-- The text of a finite floating point number. -/
def floatText (x : Float) : String :=
  let bits := x.toBits
  let sign := if bits >>> 63 = 1 then "-" else ""
  if bits <<< 1 = 0 then sign ++ "0.0" else sign ++ (Rounding.ofBits bits).shortest.render

/-- The number `m * 10 ^ e`, rounded at each of a few steps: to a floating point `m`, and
after each product with or quotient by a power of ten of at most `10 ^ 308`. There is none
where it is too large. -/
def scaledFloat? (m : UInt64) (e : Int) : Option Float :=
  if m = 0 then some 0.0
  else if e < 0 then some (shrink m.toFloat (-e).toNat)
  else if 308 < e then none
  else
    let product := m.toFloat * Float.ofScientific 1 false e.toNat
    if product.isInf then none else some product
where
  /-- `x` divided by `10 ^ k`, which takes several steps if `k` is above 308. -/
  shrink (x : Float) (k : Nat) : Float :=
    if _h : k ≤ 308 then x / Float.ofScientific 1 false k
    else if x == 0.0 then x
    else shrink (x / Float.ofScientific 1 false 308) (k - 308)
  termination_by k

end BodyLength
