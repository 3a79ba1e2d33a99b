import GateGrid.Decimal.Shortest

/-!
# How the digits of a float are laid out

`Layout` holds the decisions of one written form; `Layout.render` writes a float in it.
-/

namespace GateGrid.Decimal

/-- The decisions of a written form of floats. -/
structure Layout where
  /-- The exponents of the leading digit that are written without an exponent. -/
  positional : Int → Bool
  /-- What follows the digits of a whole number. -/
  wholeMark : String
  tie : Tie
  nan : String
  infinity : String
  negativeInfinity : String

namespace Significant

/-- The digits around a decimal point, with zeros between the point and the digits where needed. -/
def positional (wholeMark : String) (s : Significant) : List Char :=
  if s.point ≤ 0 then ['0', '.'] ++ List.replicate (-s.point).toNat '0' ++ s.digits
  else if s.digits.length ≤ s.point then
    s.digits ++ List.replicate (s.point - s.digits.length).toNat '0' ++ wholeMark.toList
  else s.digits.take s.point.toNat ++ ['.'] ++ s.digits.drop s.point.toNat

/-- One digit before the point and a signed exponent. -/
def scientific (s : Significant) : List Char :=
  let exponent := s.point - 1
  let fraction := match s.digits.drop 1 with
    | [] => []
    | rest => '.' :: rest
  s.digits.take 1 ++ fraction ++ ['e', if exponent < 0 then '-' else '+'] ++ Nat.toDigits 10 exponent.natAbs

end Significant

namespace Layout

/-- The digits of a magnitude. -/
def magnitude (f : Layout) (x : Binary) : List Char :=
  let s := x.significant f.tie
  if f.positional (s.point - 1) then s.positional f.wholeMark else s.scientific

/-- The written form of a float; the sign of zero is kept. -/
def render (f : Layout) (x : Float) : String :=
  match Binary.ofFloat? x with
  | some b => String.ofList ((if isNegative x then ['-'] else []) ++ f.magnitude b)
  | none => if x.isNaN then f.nan else if isNegative x then f.negativeInfinity else f.infinity

end Layout

end GateGrid.Decimal
