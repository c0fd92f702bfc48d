/-! Finite binary floating point with 53 bits of precision, as whole numbers: a value is
`mantissa · 2 ^ exponent`. Every operation rounds its exact result once, to nearest, and of two
nearest values takes the one with the even mantissa. The shortest decimal that reads back as a
value is found on grids of one significant digit, then two, up to seventeen: the first grid with a
point between the two midpoints to the neighbouring values wins, and on it the point nearest to the
value. -/
namespace ClientGen.Number

/-- Normal values have a mantissa of exactly 53 bits; smaller ones stand at `minExponent`. -/
structure Magnitude where
  mantissa : Nat
  exponent : Int
deriving DecidableEq, Repr

structure Binary64 where
  negative : Bool
  magnitude : Magnitude
deriving DecidableEq, Repr

namespace Magnitude

def minExponent : Int := -1074
def maxExponent : Int := 971

def zero : Magnitude := ⟨0, minExponent⟩

def isZero (x : Magnitude) : Bool := x.mantissa == 0

def divNearest (num den : Nat) : Nat :=
  let q := num / den
  let r := num % den
  if 2 * r < den then q
  else if den < 2 * r then q + 1
  else if q % 2 = 0 then q else q + 1

def scaleFraction (num den : Nat) (e : Int) : Nat × Nat :=
  if 0 ≤ e then (num, den * Nat.pow 2 e.toNat) else (num * Nat.pow 2 (-e).toNat, den)

/-- The exponent at which `num / den` has a mantissa of 53 bits, or `minExponent`. -/
def exponentOf (num den : Nat) : Int :=
  let guess : Int := (num.log2 : Int) - (den.log2 : Int) - 52
  let (n, d) := scaleFraction num den guess
  max minExponent (if n / d < Nat.pow 2 52 then guess - 1 else guess)

/-- The value nearest to `num / den`; `none` beyond the largest finite one. -/
def nearest (num den : Nat) : Option Magnitude :=
  if num = 0 then some zero
  else
    let e := exponentOf num den
    let (n, d) := scaleFraction num den e
    let m := divNearest n d
    let r : Magnitude := if m = Nat.pow 2 53 then ⟨Nat.pow 2 52, e + 1⟩ else ⟨m, e⟩
    if maxExponent < r.exponent then none else some r

def fraction (x : Magnitude) : Nat × Nat :=
  if 0 ≤ x.exponent then (x.mantissa * Nat.pow 2 x.exponent.toNat, 1)
  else (x.mantissa, Nat.pow 2 (-x.exponent).toNat)

def mul (x y : Magnitude) : Option Magnitude :=
  let (a, b) := x.fraction
  let (c, d) := y.fraction
  nearest (a * c) (b * d)

def div (x y : Magnitude) : Option Magnitude :=
  let (a, b) := x.fraction
  let (c, d) := y.fraction
  nearest (a * d) (b * c)

def powerOfTen (k : Nat) : Option Magnitude := nearest (Nat.pow 10 k) 1

end Magnitude

structure Decimal where
  coefficient : Nat
  exponent : Int
deriving DecidableEq, Repr

/-- The reals that round to one value, over a common denominator; the ends belong to it
exactly when `closed`. -/
structure Cell where
  low : Nat
  value : Nat
  high : Nat
  den : Nat
  closed : Bool

namespace Magnitude

/-- Below the least mantissa of a binade the neighbour is only half as far away. -/
def cell (x : Magnitude) : Cell :=
  let below := if x.mantissa = Nat.pow 2 52 ∧ minExponent < x.exponent then 1 else 2
  let scale := if 2 ≤ x.exponent then Nat.pow 2 (x.exponent - 2).toNat else 1
  { low := (4 * x.mantissa - below) * scale
    value := 4 * x.mantissa * scale
    high := (4 * x.mantissa + 2) * scale
    den := if 2 ≤ x.exponent then 1 else Nat.pow 2 (2 - x.exponent).toNat
    closed := x.mantissa % 2 == 0 }

end Magnitude

namespace Cell

/-- Multiplies every bound, or the denominator, so that `10 ^ k` becomes the unit. -/
def inUnits (c : Cell) (k : Int) : Cell :=
  if 0 ≤ k then { c with den := c.den * Nat.pow 10 k.toNat }
  else
    let p := Nat.pow 10 (-k).toNat
    { c with low := c.low * p, value := c.value * p, high := c.high * p }

def holds (c : Cell) (n : Nat) : Bool :=
  if c.closed then c.low ≤ n * c.den && n * c.den ≤ c.high
  else c.low < n * c.den && n * c.den < c.high

/-- The point of the unit grid nearest to the value among those of the cell. -/
def gridPoint? (c : Cell) : Option Nat :=
  let floor := c.value / c.den
  let belowHalf := 2 * (c.value % c.den) < c.den
  let half := 2 * (c.value % c.den) == c.den
  let floorFirst := belowHalf || (half && floor % 2 == 0)
  match floorFirst, c.holds floor, c.holds (floor + 1) with
  | true, true, _ => some floor
  | true, false, true => some (floor + 1)
  | false, _, true => some (floor + 1)
  | false, true, false => some floor
  | _, false, false => none

end Cell

namespace Magnitude

/-- More decimals than the smallest value has zeros behind its point. -/
def decimalRoom : Nat := 350

/-- The number `p` with `10 ^ (p - 1) ≤ x < 10 ^ p`. -/
def integerDigits (x : Magnitude) : Int :=
  let c := x.cell
  ((Nat.toDigits 10 (c.value * Nat.pow 10 decimalRoom / c.den)).length : Int) - decimalRoom

/-- The least number of digits first; seventeen always suffice. -/
def shortest (x : Magnitude) : Decimal :=
  let p := x.integerDigits
  let candidates := (List.range 17).filterMap fun (i : Nat) =>
    let k := p - ((i : Int) + 1)
    ((x.cell.inUnits k).gridPoint?).map fun n => Decimal.mk n k
  candidates.headD ⟨0, 0⟩

end Magnitude

end ClientGen.Number
