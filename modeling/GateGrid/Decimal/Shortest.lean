import GateGrid.Decimal.Binary

/-!
# The fewest decimal digits that identify a float

The grids `10 ^ (k - 1)`, `10 ^ (k - 2)`, ... are tried from the leading digit of the value downwards. On each grid
the value has two neighbours; the first grid with a neighbour that reads back wins, and of two such neighbours the
nearer one. An exact tie is left to the format (`Tie`).
-/

namespace GateGrid.Decimal

/-- Which of two equally near decimals is taken. -/
inductive Tie where
  | up
  | toEven
deriving DecidableEq

namespace Binary

/-- The value in units of `10 ^ grid`, as a fraction. -/
def inUnits (x : Binary) (grid : Int) : Nat × Nat :=
  (x.significand * Nat.pow 2 x.exponent.toNat * Nat.pow 10 (-grid).toNat,
    Nat.pow 2 (-x.exponent).toNat * Nat.pow 10 grid.toNat)

/-- Of the neighbours `n` and `n + 1` of `num / den`, the nearer one. -/
def nearer (tie : Tie) (num den : Nat) : Nat :=
  let n := num / den
  match compare (2 * num) ((2 * n + 1) * den), tie with
  | .lt, _ => n
  | .gt, _ => n + 1
  | .eq, .up => n + 1
  | .eq, .toEven => if n % 2 = 0 then n else n + 1

/-- The multiple of `10 ^ grid` to write for `x`, if one of its two neighbours reads back. -/
def onGrid? (tie : Tie) (x : Binary) (grid : Int) : Option Scaled :=
  let (num, den) := x.inUnits grid
  let below : Scaled := ⟨num / den, grid⟩
  let above : Scaled := ⟨num / den + 1, grid⟩
  match decide (x.ReadsBack below), decide (x.ReadsBack above) with
  | true, true => some ⟨nearer tie num den, grid⟩
  | true, false => some below
  | false, true => some above
  | false, false => none

/-- All digits of `x`. -/
def exact (x : Binary) : Scaled :=
  ⟨x.significand * Nat.pow 2 x.exponent.toNat * Nat.pow 5 (-x.exponent).toNat, min x.exponent 0⟩

/-- The fewest digits that identify a positive `x`; seventeen always suffice. -/
def shortest (tie : Tie) (x : Binary) : Scaled :=
  ((List.range 17).findSome? fun (n : Nat) => x.onGrid? tie (x.magnitude - 1 - n)).getD x.exact

end Binary

/-- Digits without zeros at the end, standing for `0.digits * 10 ^ point`. -/
structure Significant where
  digits : List Char
  point : Int
deriving DecidableEq

/-- The significant digits of a decimal. -/
def Scaled.significant (d : Scaled) : Significant :=
  let digits := Nat.toDigits 10 d.count
  ⟨(digits.reverse.dropWhile (· == '0')).reverse, digits.length + d.exponent⟩

/-- The significant digits of a magnitude; zero has the one digit `0`. -/
def Binary.significant (tie : Tie) (x : Binary) : Significant :=
  if x.significand = 0 then ⟨['0'], 1⟩ else (x.shortest tie).significant

end GateGrid.Decimal
