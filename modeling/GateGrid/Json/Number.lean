import GateGrid.Decimal.Layout

/-!
# JSON numbers

* `Number`: an integer of at most 64 bits, or a double.
* `Numeral`: a number as it is spelled, and `Numeral.value?`, the number it stands for.

A numeral with a point, an exponent or too many digits is worked out in doubles from a 64-bit significand and a power
of ten. Each step rounds, so the result is not always the double nearest to what is written.
-/

namespace GateGrid.Json

/-- An integer (`-2 ^ 63 ≤ value < 2 ^ 64`) or a double. -/
inductive Number where
  | integer (value : Int)
  | real (value : Float)

/-- The double that a number stands for. -/
def Number.toFloat : Number → Float
  | .integer i => Float.ofInt i
  | .real x => x

/-- Doubles are written with the fewest digits that identify them, at least one of them behind a point or an
exponent; JSON has no NaN and no infinities. -/
def numberLayout : Decimal.Layout where
  positional := fun exponent => -5 ≤ exponent && exponent ≤ 15
  wholeMark := ".0"
  tie := .toEven
  nan := "null"
  infinity := "null"
  negativeInfinity := "null"

/-- The written form of a number. -/
def Number.text : Number → String
  | .integer i => toString i
  | .real x => numberLayout.render x

/-- The power of ten behind the mark `e` or `E`. -/
structure Exponent where
  negative : Bool
  digits : List Char
deriving DecidableEq

/-- A number as it is spelled. The lists hold decimal digits. -/
structure Numeral where
  negative : Bool
  whole : List Char
  fraction : Option (List Char)
  exponent : Option Exponent
deriving DecidableEq

def digitValue (c : Char) : Nat :=
  c.toNat - '0'.toNat

/-- The natural number that decimal digits spell. -/
def digitsValue (digits : List Char) : Nat :=
  digits.foldl (fun n c => n * 10 + digitValue c) 0

def Exponent.value (e : Exponent) : Int :=
  if e.negative then -digitsValue e.digits else digitsValue e.digits

/-- Appends digits to `n` up to the first one that takes it beyond 64 bits, and gives the digits from there on. -/
def takeFitting (n : Nat) : List Char → Nat × List Char
  | [] => (n, [])
  | c :: rest =>
    if n * 10 + digitValue c < UInt64.size then takeFitting (n * 10 + digitValue c) rest else (n, c :: rest)

/-- The double nearest to `10 ^ k`. -/
def powerOfTen (k : Nat) : Float :=
  Float.ofScientific 1 false k

/-- The largest power of ten that is a finite double. -/
def maxPower : Nat := 308

/-- Divides by `10 ^ 308` as often as said, or until nothing is left. -/
def divideTimes : Nat → Float → Float
  | 0, x => x
  | k + 1, x => if x == 0 then x else divideTimes k (x / powerOfTen maxPower)

/-- `x * 10 ^ exponent` in doubles, `none` if that is beyond their range. -/
def scale? (x : Float) (exponent : Int) : Option Float :=
  if 0 ≤ exponent then
    if exponent ≤ maxPower then
      let y := x * powerOfTen exponent.toNat
      if y.isInf then none else some y
    else if x == 0 then some x else none
  else
    let steps := (exponent.natAbs - 1) / maxPower
    some (divideTimes steps x / powerOfTen (exponent.natAbs - maxPower * steps))

namespace Numeral

/-- The sign applied to a double; `-0` keeps it. -/
def signed (m : Numeral) (x : Float) : Float :=
  if m.negative then -x else x

/-- A numeral without point and exponent whose digits fit 64 bits. A negative one is an integer only from `-2 ^ 63`
to `-1`. -/
def wholeValue (m : Numeral) (n : Nat) : Number :=
  if ¬ m.negative then .integer n
  else if 0 < n ∧ n ≤ UInt64.size / 2 then .integer (-n)
  else .real (m.signed (Float.ofNat n))

/-- The number that a numeral stands for, `none` if it is out of range. -/
def value? (m : Numeral) : Option Number :=
  let (n, dropped) := takeFitting 0 m.whole
  if m.fraction.isNone ∧ m.exponent.isNone ∧ dropped.isEmpty then some (m.wholeValue n)
  else
    let fraction := m.fraction.getD []
    let (significand, unused) := takeFitting n fraction
    let written := (m.exponent.map Exponent.value).getD 0
    let exponent := (dropped.length : Int) - (fraction.length - unused.length : Nat) + written
    (scale? (Float.ofNat significand) exponent).map fun x => .real (m.signed x)

end Numeral

end GateGrid.Json
