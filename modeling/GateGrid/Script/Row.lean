import GateGrid.Instruction.Basic
import GateGrid.Script.Error

/-!
# Rows

A row has one cell for each qubit: the code of the gate's operand there, or `I` where the gate does not act.
-/

namespace GateGrid

/-- The cell of a qubit on which a gate does not act. -/
def identityCode : Char := 'I'

namespace Symbol

/-- Writes codes into the cells of their qubits; a later code replaces an earlier one. -/
def place (symbol : Symbol) : List (Qubit × Char) → List Char → Except EncodeError (List Char)
  | [], row => .ok row
  | (q, code) :: rest, row =>
    if q.index.toNat < row.length then symbol.place rest (row.set q.index.toNat code)
    else .error (.qubitOutOfRange symbol q.index.toNat row.length)

/-- The row of a gate. Without operands it is the identity row; otherwise there must be one operand for each code. -/
def row (symbol : Symbol) (qubits : List Qubit) (width : Nat) : Except EncodeError (List Char) :=
  let identity := List.replicate width identityCode
  if qubits.isEmpty then .ok identity
  else if qubits.length ≠ symbol.numQubits then .error (.qubitCountMismatch symbol qubits.length)
  else symbol.place (qubits.zip symbol.codes) identity

end Symbol

/-- One more than the highest qubit that the instructions name, and at least one. -/
def rowWidth (instructions : List Instruction) : Nat :=
  ((instructions.flatMap (·.qubits)).map fun q => q.index.toNat + 1).foldl max 1

end GateGrid
