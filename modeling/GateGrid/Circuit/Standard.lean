import GateGrid.Circuit.Basic

/-!
# Standard circuits

The Bell pair and the chain of controlled gates that prepares a GHZ state.
-/

namespace GateGrid.Circuit

/-- Two entangled qubits, measured. -/
def bell : Except CircuitError Circuit := do
  let c : Circuit := { name := "bell", numQubits := 2, numClbits := 2 }
  let c ← c.standard (.h ⟨0⟩)
  let c ← c.standard (.cx ⟨0⟩ ⟨1⟩)
  c.measureAll

/-- `n` entangled qubits, measured: one Hadamard gate, then a controlled gate from each qubit to the next. For no
qubits the circuit is empty. -/
def ghz (n : UInt32) : Except CircuitError Circuit := do
  let c : Circuit := { name := s!"ghz_{n.toNat}", numQubits := n, numClbits := n }
  if n = 0 then return c
  let chain := (indices (n - 1)).map fun i => StandardGate.cx ⟨i⟩ ⟨i + 1⟩
  let c ← c.applyAll ((.h ⟨0⟩ :: chain).map (·.instruction))
  c.measureAll

end GateGrid.Circuit
