import ClientGen.Json.Scan
import ClientGen.Number.Binary64

namespace ClientGen.Toml

def isScalarChar (c : Char) : Bool :=
  c.isAlphanum || c == '_' || c == '+' || c == '-' || c == '.' || c == ':'

def isGrouped (isDigit : Char → Bool) (s : List Char) : Bool :=
  (s.splitOn '_').all fun run => !run.isEmpty && run.all isDigit

def isHexDigit (c : Char) : Bool :=
  c.isDigit || ('a' ≤ c && c ≤ 'f') || ('A' ≤ c && c ≤ 'F')

def isOctalDigit (c : Char) : Bool := '0' ≤ c && c ≤ '7'

def isBinaryDigit (c : Char) : Bool := c == '0' || c == '1'

def dropSign : List Char → List Char
  | '+' :: s => s
  | '-' :: s => s
  | s => s

def isWhole : List Char → Bool
  | ['0'] => true
  | '0' :: _ => false
  | s => isGrouped Char.isDigit s

def groupedValue (radix : Nat) (s : List Char) : Nat :=
  (s.filterMap Json.hexDigit?).foldl (fun n d => n * radix + d) 0

def integerBound : Nat := Nat.pow 2 63

def isInteger (s : List Char) : Bool :=
  match s with
  | '0' :: 'x' :: ds => isGrouped isHexDigit ds && groupedValue 16 ds < integerBound
  | '0' :: 'o' :: ds => isGrouped isOctalDigit ds && groupedValue 8 ds < integerBound
  | '0' :: 'b' :: ds => isGrouped isBinaryDigit ds && groupedValue 2 ds < integerBound
  | '-' :: ds => isWhole ds && groupedValue 10 ds ≤ integerBound
  | s => isWhole (dropSign s) && groupedValue 10 (dropSign s) < integerBound

def isExponent : List Char → Bool
  | [] => true
  | c :: s => (c == 'e' || c == 'E') && isGrouped Char.isDigit (dropSign s)

def exponentValue : List Char → Int
  | _ :: '-' :: s => -(groupedValue 10 s : Int)
  | _ :: s => groupedValue 10 s
  | [] => 0

/-- Whether `n · 10 ^ e`, rounded to 53 bits, is a finite double. By far the most numbers are
told apart by where their first digit stands, without a large power. -/
def isFinite (n : Nat) (e : Int) : Bool :=
  let first := (Nat.toDigits 10 n).length + e
  if n = 0 ∨ first < 309 then true
  else if 309 < first then false
  else (Number.Magnitude.nearest (n * Nat.pow 10 e.toNat) (Nat.pow 10 (-e).toNat)).isSome

/-- A whole part with a fraction, an exponent, or both. Above zero it must be finite; far
below zero it need not be. -/
def isFloat (s : List Char) : Bool :=
  let u := dropSign s
  if u = ['i', 'n', 'f'] || u = ['n', 'a', 'n'] then true
  else
    let isPart (c : Char) := c.isDigit || c == '_'
    let whole := u.takeWhile isPart
    let rest := u.dropWhile isPart
    let (fraction, exponent) := match rest with
      | '.' :: t => (t.takeWhile isPart, t.dropWhile isPart)
      | t => ([], t)
    !rest.isEmpty && isWhole whole
      && (rest.head? != some '.' || isGrouped Char.isDigit fraction) && isExponent exponent
      && (s.head? == some '-' || isFinite (groupedValue 10 (whole ++ fraction))
        (exponentValue exponent - (fraction.filter Char.isDigit).length))

def number? (s : List Char) : Option Nat :=
  if !s.isEmpty && s.all Char.isDigit then some (groupedValue 10 s) else none

def daysIn (year month : Nat) : Nat :=
  if month = 2 then
    if year % 4 = 0 && (year % 100 != 0 || year % 400 = 0) then 29 else 28
  else if month = 4 || month = 6 || month = 9 || month = 11 then 30 else 31

/-- `YYYY-MM-DD` -/
def isDate : List Char → Bool
  | [a, b, c, d, '-', e, f, '-', g, h] =>
    match number? [a, b, c, d], number? [e, f], number? [g, h] with
    | some year, some month, some day =>
      1 ≤ month && month ≤ 12 && 1 ≤ day && day ≤ daysIn year month
    | _, _, _ => false
  | _ => false

def isClock (a b c d : Char) : Bool :=
  match number? [a, b], number? [c, d] with
  | some hour, some minute => hour ≤ 23 && minute ≤ 59
  | _, _ => false

/-- What follows the seconds: a fraction, an offset, or both; a time of day alone has no
offset. -/
def isTimeTail (offset : Bool) (s : List Char) : Bool :=
  let afterFraction := match s with
    | '.' :: t => if (t.takeWhile Char.isDigit).isEmpty then ['.'] else t.dropWhile Char.isDigit
    | t => t
  match afterFraction with
  | [] => true
  | ['Z'] => offset
  | ['z'] => offset
  | [sign, a, b, ':', c, d] => offset && (sign == '+' || sign == '-') && isClock a b c d
  | _ => false

/-- `HH:MM:SS`, where a leap second may be written. -/
def isTime (offset : Bool) : List Char → Bool
  | a :: b :: ':' :: c :: d :: ':' :: e :: f :: tail =>
    isClock a b c d && (match number? [e, f] with
      | some second => second ≤ 60
      | none => false) && isTimeTail offset tail
  | _ => false

def isDateTime (s : List Char) : Bool :=
  match s.drop 10 with
  | [] => isDate s
  | mark :: time =>
    isDate (s.take 10) && (mark == 'T' || mark == 't' || mark == ' ') && isTime true time

def isScalar (s : List Char) : Bool :=
  s = ['t', 'r', 'u', 'e'] || s = ['f', 'a', 'l', 's', 'e'] || isInteger s || isFloat s
    || isDateTime s || isTime false s

/-- The longest run that can be such a spelling; a date may be followed by a space and a
time. -/
def scalarRun (s : List Char) : List Char :=
  let run := s.takeWhile isScalarChar
  match isDate run, s.drop run.length with
  | true, ' ' :: c :: rest =>
    if c.isDigit then run ++ ' ' :: (c :: rest).takeWhile isScalarChar else run
  | _, _ => run

end ClientGen.Toml
