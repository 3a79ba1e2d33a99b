/-!
# The exact value of a binary64 float

* `Binary`: a finite magnitude `significand * 2 ^ exponent`, read off the bits by `Binary.ofFloat?`.
* `Scaled`: a decimal `count * 10 ^ exponent`.
* `Binary.ReadsBack`: the decimal lies among the reals that round to the float (to nearest, ties to even).
-/

namespace GateGrid.Decimal

/-- The finite magnitude `significand * 2 ^ exponent`. -/
structure Binary where
  significand : Nat
  exponent : Int
  /-- The float below is half as far away as the float above. -/
  tightBelow : Bool
deriving DecidableEq

/-- The decimal `count * 10 ^ exponent`. -/
structure Scaled where
  count : Nat
  exponent : Int
deriving DecidableEq

/-- The sign bit, set also on `-0`. -/
def isNegative (x : Float) : Bool :=
  x.toBits >>> 63 == 1

/-- The magnitude of a finite float, `none` for NaN and the infinities. -/
def Binary.ofFloat? (x : Float) : Option Binary :=
  let exponent := ((x.toBits >>> 52) &&& 0x7FF).toNat
  let fraction := (x.toBits &&& 0xFFFFFFFFFFFFF).toNat
  if exponent = 0x7FF then none
  else if exponent = 0 then some ⟨fraction, -1074, false⟩
  else some ⟨0x10000000000000 + fraction, (exponent : Int) - 1075, fraction == 0 && exponent > 1⟩

/-- The order of `n * 10 ^ i` and `m * 2 ^ j`. -/
def compareScaled (n : Nat) (i : Int) (m : Nat) (j : Int) : Ordering :=
  compare (n * Nat.pow 10 i.toNat * Nat.pow 2 (-j).toNat) (m * Nat.pow 2 j.toNat * Nat.pow 10 (-i).toNat)

namespace Binary

/-- Halfway to the float below, in quarters of the unit `2 ^ exponent`. -/
def lowQuarters (x : Binary) : Nat :=
  if x.tightBelow then 4 * x.significand - 1 else 4 * x.significand - 2

/-- Halfway to the float above, in quarters of the unit `2 ^ exponent`. -/
def highQuarters (x : Binary) : Nat :=
  4 * x.significand + 2

/-- `d` rounds to `x`: it lies between the halfway points, which count exactly when the significand
is even. -/
def ReadsBack (x : Binary) (d : Scaled) : Prop :=
  let low := compareScaled d.count d.exponent x.lowQuarters (x.exponent - 2)
  let high := compareScaled d.count d.exponent x.highQuarters (x.exponent - 2)
  (low = .gt ∨ x.significand % 2 = 0 ∧ low = .eq) ∧
    (high = .lt ∨ x.significand % 2 = 0 ∧ high = .eq)

instance (x : Binary) (d : Scaled) : Decidable (x.ReadsBack d) := by
  unfold ReadsBack
  infer_instance

/-- The least `k` with `x < 10 ^ k`, for a positive `x`. The binary logarithm gives it up to one step. -/
def magnitude (x : Binary) : Int :=
  let k := (x.significand.log2 + x.exponent) * 78913 / 262144 + 1
  if compareScaled 1 k x.significand x.exponent = .gt then k else k + 1

end Binary

end GateGrid.Decimal
