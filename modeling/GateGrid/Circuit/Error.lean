import GateGrid.Instruction.Basic
import GateGrid.Json.Fault

/-!
# What can be wrong with a circuit

`CircuitError` names the causes; `CircuitError.message` words them.
-/

namespace GateGrid

/-- Why an instruction does not fit a circuit, or a text is no circuit. -/
inductive CircuitError where
  | qubitNotFound (qubit : Qubit) (gate : Option String)
  | duplicateQubit (qubit : Qubit) (gate : Option String)
  | clbitNotFound (clbit : Clbit)
  | clbitCountMismatch (qubits clbits : Nat)
  | malformedText (fault : Json.Fault)

namespace CircuitError

/-- Names the gate at the end of a message, if there is one. -/
def gateNote : Option String → String
  | some name => s!" (gate: {name})"
  | none => ""

def message : CircuitError → String
  | .qubitNotFound q gate => s!"Qubit {q.text} not found in circuit" ++ gateNote gate
  | .duplicateQubit q gate => s!"Duplicate qubit {q.text} in operation" ++ gateNote gate
  | .clbitNotFound c => s!"Classical bit {c.text} not found in circuit"
  | .clbitCountMismatch qubits clbits =>
    s!"Measurement over {qubits} qubits needs {qubits} classical bits, got {clbits}"
  | .malformedText fault => s!"Invalid circuit JSON: {fault.message}"

/-- The problem behind an error, if it is one of another kind. -/
def cause : CircuitError → List String
  | .malformedText fault => [fault.message]
  | _ => []

end CircuitError

end GateGrid
