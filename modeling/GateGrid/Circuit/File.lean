import GateGrid.Circuit.Basic
import GateGrid.Instruction.Json

/-!
# Circuit files

A circuit file is a JSON record of the name, the two register sizes and the instructions. An instruction is an object
that says what it is by its keys: `gate` and `qubits`, `measure` and `clbits`, or `barrier`. `Circuit.ofJson` reads a
file and then appends the instructions one by one, so what it gives has passed the same checks as a circuit that was
built; `Circuit.toJson` writes one.
-/

namespace GateGrid

open Json (Reader Value Record)

/-! ### Entries -/

namespace Entry

/-- The value of a key that must occur exactly once. -/
def member? {α : Type} (members : List (String × Value)) (key : String) (decode : Value → Option α) : Option α :=
  match members.filter (·.1 == key) with
  | [(_, v)] => decode v
  | _ => none

/-- The value of a key that may occur once, or a default. -/
def memberD {α : Type} (members : List (String × Value)) (key : String) (decode : Value → Option α)
    (default : α) : Option α :=
  match members.filter (·.1 == key) with
  | [] => some default
  | [(_, v)] => decode v
  | _ => none

def toQubits? : Value → Option (List Qubit) :=
  Value.toList? fun v => v.toNatural32?.map Qubit.mk

def toClbits? : Value → Option (List Clbit) :=
  Value.toList? fun v => v.toNatural32?.map Clbit.mk

def gate? (members : List (String × Value)) : Option Instruction := do
  let name ← member? members "gate" Value.toText?
  let qubits ← member? members "qubits" toQubits?
  let params ← memberD members "params" (Value.toList? Value.toReal?) []
  let label ← memberD members "label" Value.toTextOrNull? none
  return .ofGate { name, params, label } qubits

def measure? (members : List (String × Value)) : Option Instruction := do
  return .measure (← member? members "measure" toQubits?) (← member? members "clbits" toClbits?)

def barrier? (members : List (String × Value)) : Option Instruction := do
  return .barrier (← member? members "barrier" toQubits?)

end Entry

/-- The instruction of an entry: a gate if it has all that a gate needs, else a measurement, else a barrier. -/
def Instruction.ofEntry? : Value → Option Instruction
  | .object members => Entry.gate? members <|> Entry.measure? members <|> Entry.barrier? members
  | _ => none

/-- The entry of an instruction. Gates and barriers are written without classical bits. -/
def Instruction.toEntry (i : Instruction) : Value :=
  let qubits := Value.list (i.qubits.map Qubit.toJson)
  match i.operation with
  | .gate g => .object (("gate", .text g.name) :: ("qubits", qubits) :: g.paramMembers ++ g.labelMembers)
  | .measure => .object [("measure", qubits), ("clbits", .list (i.clbits.map Clbit.toJson))]
  | .barrier => .object [("barrier", qubits)]

/-! ### Files -/

/-- A circuit file some of whose fields may be missing. -/
structure CircuitDraft where
  name : Option String := none
  numQubits : Option UInt32 := none
  numClbits : Option UInt32 := none
  instructions : Option (List Instruction) := none

namespace Circuit

/-- An entry of a file. It stands in the list of instructions inside the file, so two of the levels that may be open
are taken. -/
def readEntry : Reader Instruction := do
  match Instruction.ofEntry? (← Value.read (Json.nestingLimit - 2)) with
  | some i => return i
  | none => throw (.noVariant "InstructionEntry")

/-- A file must say how many qubits there are. The instructions are not checked yet. -/
def record : Record CircuitDraft Circuit where
  name := "struct CircuitFile"
  fields := [
    ⟨"name", (·.name.isSome), fun d => return { d with name := some (← Json.readString) }⟩,
    ⟨"num_qubits", (·.numQubits.isSome), fun d => return { d with numQubits := some (← Json.readNatural32) }⟩,
    ⟨"num_clbits", (·.numClbits.isSome), fun d => return { d with numClbits := some (← Json.readNatural32) }⟩,
    ⟨"instructions", (·.instructions.isSome),
      fun d => return { d with instructions := some (← Json.readListOf readEntry) }⟩]
  blank := {}
  finish d := do
    return {
      name := d.name.getD ""
      numQubits := ← Json.required "num_qubits" d.numQubits
      numClbits := d.numClbits.getD 0
      instructions := d.instructions.getD [] }

/-- The circuit of a file. The whole text is read before the first instruction is checked. -/
def ofJson (text : String) : Except CircuitError Circuit :=
  match Reader.document record.read text with
  | .error fault => .error (.malformedText fault)
  | .ok file => Circuit.applyAll { file with instructions := [] } file.instructions

def toValue (c : Circuit) : Value :=
  .object [("name", .text c.name), ("num_qubits", .number (.integer c.numQubits.toNat)),
    ("num_clbits", .number (.integer c.numClbits.toNat)), ("instructions", .list (c.instructions.map (·.toEntry)))]

/-- The file of a circuit. -/
def toJson (c : Circuit) : String :=
  c.toValue.pretty

end Circuit

end GateGrid
