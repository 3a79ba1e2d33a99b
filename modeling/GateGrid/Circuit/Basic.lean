import Std.Data.TreeSet
import GateGrid.Instruction.Standard
import GateGrid.Circuit.Error

/-!
# Circuits

A `Circuit` declares a quantum and a classical register and holds instructions in program order. `Circuit.apply`
appends an instruction if its operands fit the registers: every qubit declared and named once, every classical bit
declared, and in a measurement as many of the one as of the other.
-/

namespace GateGrid

/-- A program over a quantum and a classical register. -/
structure Circuit where
  name : String
  numQubits : UInt32 := 0
  numClbits : UInt32 := 0
  instructions : List Instruction := []
deriving BEq

namespace Circuit

/-! ### Registers -/

/-- Declares one more qubit. -/
def addQubit (c : Circuit) : Qubit × Circuit :=
  (⟨c.numQubits⟩, { c with numQubits := c.numQubits + 1 })

/-- Declares one more classical bit. -/
def addClbit (c : Circuit) : Clbit × Circuit :=
  (⟨c.numClbits⟩, { c with numClbits := c.numClbits + 1 })

/-- The wires below a size, in order. -/
def indices (size : UInt32) : List UInt32 :=
  (List.range size.toNat).map UInt32.ofNat

def allQubits (c : Circuit) : List Qubit :=
  (indices c.numQubits).map Qubit.mk

/-! ### Operands -/

/-- The first qubit that is not declared or has been seen before is an error. -/
def checkQubits (c : Circuit) (gate : Option String) (seen : Std.TreeSet UInt32) :
    List Qubit → Except CircuitError Unit
  | [] => .ok ()
  | q :: rest =>
    if c.numQubits ≤ q.index then .error (.qubitNotFound q gate)
    else if seen.contains q.index then .error (.duplicateQubit q gate)
    else c.checkQubits gate (seen.insert q.index) rest

/-- The first classical bit that is not declared is an error. -/
def checkClbits (c : Circuit) : List Clbit → Except CircuitError Unit
  | [] => .ok ()
  | b :: rest => if c.numClbits ≤ b.index then .error (.clbitNotFound b) else c.checkClbits rest

/-- A measurement needs as many classical bits as qubits. -/
def checkCounts (i : Instruction) : Except CircuitError Unit :=
  if i.isMeasure ∧ i.qubits.length ≠ i.clbits.length then
    .error (.clbitCountMismatch i.qubits.length i.clbits.length)
  else .ok ()

/-- Checks the qubits, then the classical bits, then their counts. -/
def check (c : Circuit) (i : Instruction) : Except CircuitError Unit := do
  c.checkQubits (i.gate?.map Gate.name) ∅ i.qubits
  c.checkClbits i.clbits
  checkCounts i

/-! ### Building -/

/-- Appends an instruction whose operands fit the registers. -/
def apply (c : Circuit) (i : Instruction) : Except CircuitError Circuit := do
  c.check i
  return { c with instructions := c.instructions ++ [i] }

/-- Appends a named gate. -/
def gate (c : Circuit) (g : Gate) (qubits : List Qubit) : Except CircuitError Circuit :=
  c.apply (.ofGate g qubits)

/-- Appends a standard gate. -/
def standard (c : Circuit) (g : StandardGate) : Except CircuitError Circuit :=
  c.apply g.instruction

/-- Appends a measurement. -/
def measure (c : Circuit) (qubits : List Qubit) (clbits : List Clbit) : Except CircuitError Circuit :=
  c.apply (.measure qubits clbits)

/-- Declares classical bits until there are as many as qubits. -/
def growClbits (c : Circuit) : Circuit :=
  if c.numClbits < c.numQubits then c.addClbit.2.growClbits else c
termination_by c.numQubits.toNat - c.numClbits.toNat
decreasing_by
  rename_i h
  have hlt : c.numClbits.toNat < c.numQubits.toNat := h
  -- the counter does not wrap around: the number of qubits is a word above it
  have hsize := c.numQubits.toNat_lt
  simp only [addClbit, UInt32.toNat_add, UInt32.toNat_one]
  omega

/-- Measures every qubit into the classical bit of its index; the classical register grows where it is too small. -/
def measureAll (c : Circuit) : Except CircuitError Circuit :=
  let grown := c.growClbits
  grown.measure grown.allQubits ((indices grown.numQubits).map Clbit.mk)

/-- Appends a barrier. -/
def barrier (c : Circuit) (qubits : List Qubit) : Except CircuitError Circuit :=
  c.apply (.barrier qubits)

/-- Appends a barrier over every qubit. -/
def barrierAll (c : Circuit) : Except CircuitError Circuit :=
  c.barrier c.allQubits

/-- Checks instructions in their order. -/
def checkAll (c : Circuit) : List Instruction → Except CircuitError Unit
  | [] => .ok ()
  | i :: rest => do
    c.check i
    c.checkAll rest

/-- Appends instructions, all of which must fit. No instruction changes the registers, so none has to be appended
before the next is checked. -/
def applyAll (c : Circuit) (instructions : List Instruction) : Except CircuitError Circuit := do
  c.checkAll instructions
  return { c with instructions := c.instructions ++ instructions }

/-! ### Views -/

def isEmpty (c : Circuit) : Bool :=
  c.instructions.isEmpty

/-- The gate instructions. -/
def gates (c : Circuit) : List Instruction :=
  c.instructions.filter (·.gate?.isSome)

end Circuit

end GateGrid
