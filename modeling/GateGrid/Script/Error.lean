import GateGrid.Script.Symbol

/-!
# Why a circuit has no script

`EncodeError` names the causes; `EncodeError.message` words them.
-/

namespace GateGrid

/-- Why an instruction cannot be written in a script. -/
inductive EncodeError where
  | unknownGate (name : String)
  | qubitCountMismatch (gate : Symbol) (got : Nat)
  | qubitOutOfRange (gate : Symbol) (qubit width : Nat)
  | malformedParameters (gate : Symbol) (got : Nat)
deriving DecidableEq

def EncodeError.message : EncodeError → String
  | .unknownGate name => s!"Unknown gate: {name}"
  | .qubitCountMismatch gate got => s!"Gate '{gate.name}' expects {gate.numQubits} qubits, got {got}"
  | .qubitOutOfRange gate qubit width =>
    s!"Gate '{gate.name}' targets qubit {qubit} outside a row of width {width}"
  | .malformedParameters gate got => s!"Gate '{gate.name}' cannot encode {got} parameters"

end GateGrid
