/-!
# Instructions

* `Qubit`, `Clbit`: wires of the quantum and the classical register, by index.
* `Gate`: a name with angles and perhaps a label. Names are not interpreted here.
* `Instruction`: a gate, a measurement or a barrier with its operands.
-/

namespace GateGrid

/-- A wire of the quantum register. -/
structure Qubit where
  index : UInt32
deriving DecidableEq

/-- A wire of the classical register. -/
structure Clbit where
  index : UInt32
deriving DecidableEq

def Qubit.text (q : Qubit) : String :=
  s!"q{q.index.toNat}"

def Clbit.text (c : Clbit) : String :=
  s!"c{c.index.toNat}"

/-- Qubits are ordered by index. -/
instance : Ord Qubit where
  compare q r := compare q.index r.index

/-- Classical bits are ordered by index. -/
instance : Ord Clbit where
  compare b c := compare b.index c.index

/-- A named gate. Equality compares the angles as floats, so NaN differs from itself and `0` equals `-0`. -/
structure Gate where
  name : String
  params : List Float := []
  label : Option String := none
deriving BEq

/-- What an instruction does. -/
inductive Operation where
  | gate (gate : Gate)
  | measure
  | barrier
deriving BEq

/-- An operation with its operands, in the natural order of the operation. -/
structure Instruction where
  operation : Operation
  qubits : List Qubit
  clbits : List Clbit
deriving BEq

namespace Instruction

def ofGate (gate : Gate) (qubits : List Qubit) : Instruction :=
  ⟨.gate gate, qubits, []⟩

/-- Measures each qubit into the classical bit at the same place. -/
def measure (qubits : List Qubit) (clbits : List Clbit) : Instruction :=
  ⟨.measure, qubits, clbits⟩

def barrier (qubits : List Qubit) : Instruction :=
  ⟨.barrier, qubits, []⟩

def gate? (i : Instruction) : Option Gate :=
  match i.operation with
  | .gate g => some g
  | _ => none

def isMeasure (i : Instruction) : Bool :=
  match i.operation with
  | .measure => true
  | _ => false

def isBarrier (i : Instruction) : Bool :=
  match i.operation with
  | .barrier => true
  | _ => false

/-- The name of the gate, or of the kind of instruction. -/
def name (i : Instruction) : String :=
  match i.operation with
  | .gate g => g.name
  | .measure => "measure"
  | .barrier => "barrier"

/-- The angles of the gate; other instructions have none. -/
def params (i : Instruction) : List Float :=
  match i.operation with
  | .gate g => g.params
  | _ => []

end Instruction

end GateGrid
