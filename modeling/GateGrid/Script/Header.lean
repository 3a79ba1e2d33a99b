import GateGrid.Decimal.Layout
import GateGrid.Script.Error
import GateGrid.Script.Policy

/-!
# Headers

A row of a gate with free angles stands under a header line of three numbers.
-/

namespace GateGrid

/-- The three angles above a row. -/
structure Header where
  first : Float
  second : Float
  third : Float

namespace Header

/-- Angles are written with the fewest digits that identify them, never with an exponent. -/
def layout : Decimal.Layout where
  positional := fun _ => true
  wholeMark := ""
  tie := .up
  nan := "NaN"
  infinity := "inf"
  negativeInfinity := "-inf"

/-- The header line. -/
def text (h : Header) : String :=
  "\x7bU " ++ layout.render h.first ++ " " ++ layout.render h.second ++ " " ++ layout.render h.third ++ "\x7d"

def toList (h : Header) : List Float :=
  [h.first, h.second, h.third]

/-- The places of a header in their order, each as the way to write it. -/
def places : List (Header → Float → Header) :=
  [fun h angle => { h with first := angle }, fun h angle => { h with second := angle },
    fun h angle => { h with third := angle }]

end Header

namespace Symbol

/-- The angles of a list in a shape that the gate takes. The fourth angle of `u` and `cu` is a global phase and does not
show. -/
def acceptedAngles? : Symbol → List Float → Option Header
  | .ry, [theta] => some ⟨theta, 0, 0⟩
  | .cp, [lambda] => some ⟨0, 0, lambda⟩
  | .u, [theta, phi, lambda] => some ⟨theta, phi, lambda⟩
  | .u, [theta, phi, lambda, _] => some ⟨theta, phi, lambda⟩
  | .cu, [theta, phi, lambda] => some ⟨theta, phi, lambda⟩
  | .cu, [theta, phi, lambda, _] => some ⟨theta, phi, lambda⟩
  | _, _ => none

/-- The angles of a list in any other shape. A controlled phase has its angle in the last place; otherwise the places
are filled from the first on for as long as there are angles. -/
def lenientAngles (symbol : Symbol) (params : List Float) : Header :=
  match symbol with
  | .cp => ⟨0, 0, params.head?.getD 0⟩
  | _ => (Header.places.zip params).foldl (fun values (put, angle) => put values angle) ⟨0, 0, 0⟩

/-- The header above a row of the gate, if it has one. The policy is asked about shapes that the gate does not take. -/
def header (symbol : Symbol) (policy : Policy) (params : List Float) : Except EncodeError (Option Header) :=
  if ¬ symbol.hasHeader then .ok none
  else match symbol.acceptedAngles? params with
    | some values => .ok (some values)
    | none =>
      match policy with
      | .strict => .error (.malformedParameters symbol params.length)
      | .lenient => .ok (some (symbol.lenientAngles params))

end Symbol

end GateGrid
