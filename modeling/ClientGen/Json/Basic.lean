import ClientGen.Number.Binary64
import ClientGen.Table
/-! JSON values. Numbers are whole numbers of 64 bits, and binary floating point for all other
spellings; objects keep the order of their members. -/
namespace ClientGen.Json

open ClientGen.Number

inductive Number
  | integer (value : Int)
  | real (value : Binary64)
deriving DecidableEq, Repr

/-- A number as it is spelled. `fraction` and `exponent` are `none` when the spelling has
no such part. -/
structure Numeral where
  negative : Bool
  digits : List Nat
  fraction : Option (List Nat)
  exponent : Option (Bool × List Nat)
deriving DecidableEq, Repr

namespace Numeral

/-- As many leading digits as 64 bits hold, and the digits left over. -/
def significand (acc : Nat) : List Nat → Nat × List Nat
  | [] => (acc, [])
  | d :: ds => if acc * 10 + d < Nat.pow 2 64 then significand (acc * 10 + d) ds else (acc, d :: ds)

/-- The first power of ten with no finite value, less one. -/
def maxPower : Nat := 308

/-- `significand · 10 ^ exponent`, with one rounding for each of: the significand, the
power, and their product or quotient. Quotients far below the smallest value take an
intermediate division by the largest power. `none` beyond the largest finite value. -/
def scale (significand : Nat) (exponent : Int) : Option Magnitude := do
  if significand = 0 then return .zero
  let x ← Magnitude.nearest significand 1
  if 0 ≤ exponent then
    if (maxPower : Int) < exponent then none
    else x.mul (← Magnitude.powerOfTen exponent.toNat)
  else
    let k := (-exponent).toNat
    if k ≤ maxPower then x.div (← Magnitude.powerOfTen k)
    else if 2 * maxPower < k then return .zero
    else
      let y ← x.div (← Magnitude.powerOfTen maxPower)
      y.div (← Magnitude.powerOfTen (k - maxPower))

def ofDigits (ds : List Nat) : Nat := ds.foldl (fun n d => n * 10 + d) 0

/-- `none` when the value is beyond the largest finite one. A plain integer of 64 bits,
signed or unsigned, stays one; `-0` does not. -/
def number? (n : Numeral) : Option Number :=
  let (whole, dropped) := significand 0 n.digits
  let (all, droppedFraction) := significand whole (n.fraction.getD [])
  let shift : Int := match n.exponent with
    | none => 0
    | some (negative, ds) => if negative then -(ofDigits ds : Int) else ofDigits ds
  let real := (scale all (dropped.length
      - ((n.fraction.getD []).length - droppedFraction.length : Nat) + shift)).map
    fun m => Number.real ⟨n.negative, m⟩
  match n.fraction, n.exponent, dropped with
  | none, none, [] =>
    if !n.negative then some (.integer whole)
    else if 1 ≤ whole ∧ whole ≤ Nat.pow 2 63 then some (.integer (-whole))
    else real
  | _, _, _ => real

end Numeral

structure RealFormat where
  leastPositional : Int
  greatestPositional : Int

/-- Values from `0.00001` up to below ten to the sixteenth are written positionally. -/
def realFormat : RealFormat := ⟨-5, 15⟩

/-- Digits with a point after the first `point` of them, padded by zeros on either side so
that a digit stands on both sides of it. -/
def positional (digits : List Char) (point : Int) : List Char :=
  if point ≤ 0 then '0' :: '.' :: (List.replicate (-point).toNat '0' ++ digits)
  else
    let p := point.toNat
    if digits.length ≤ p then digits ++ List.replicate (p - digits.length) '0' ++ ['.', '0']
    else digits.take p ++ '.' :: digits.drop p

def scientific (digits : List Char) (exponent : Int) : List Char :=
  let mantissa := match digits with
    | d :: e :: ds => d :: '.' :: e :: ds
    | ds => ds
  let sign := if exponent < 0 then '-' else '+'
  mantissa ++ 'e' :: sign :: Nat.toDigits 10 exponent.natAbs

def dropTrailingZeros (digits : List Char) : List Char :=
  (digits.reverse.dropWhile (· == '0')).reverse

def magnitudeText (x : Magnitude) : List Char :=
  if x.isZero then ['0', '.', '0']
  else
    let d := x.shortest
    let all := Nat.toDigits 10 d.coefficient
    let point := (all.length : Int) + d.exponent
    let digits := dropTrailingZeros all
    if realFormat.leastPositional ≤ point - 1 ∧ point - 1 ≤ realFormat.greatestPositional then
      positional digits point
    else scientific digits (point - 1)

namespace Number

def text : Number → String
  | .integer n => if n < 0 then "-" ++ n.natAbs.repr else n.natAbs.repr
  | .real x => String.ofList (if x.negative then '-' :: magnitudeText x.magnitude
      else magnitudeText x.magnitude)

end Number

end ClientGen.Json

namespace ClientGen

inductive Json
  | null
  | bool (value : Bool)
  | number (value : Json.Number)
  | text (value : String)
  | list (items : List Json)
  | object (members : List (String × Json))
deriving Inhabited

namespace Json

def text? : Json → Option String
  | .text s => some s
  | _ => none

mutual

def height : Json → Nat
  | .list items => heightList items + 1
  | .object members => heightMembers members + 1
  | _ => 0

def heightList : List Json → Nat
  | [] => 0
  | v :: vs => max v.height (heightList vs)

def heightMembers : List (String × Json) → Nat
  | [] => 0
  | (_, v) :: ms => max v.height (heightMembers ms)

end

mutual

def Distinct : Json → Prop
  | .list items => DistinctList items
  | .object members => (Table.keys members).Nodup ∧ DistinctMembers members
  | _ => True

def DistinctList : List Json → Prop
  | [] => True
  | v :: vs => v.Distinct ∧ DistinctList vs

def DistinctMembers : List (String × Json) → Prop
  | [] => True
  | (_, v) :: ms => v.Distinct ∧ DistinctMembers ms

end

end Json

end ClientGen
