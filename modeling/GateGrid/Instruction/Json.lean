import GateGrid.Instruction.Basic
import GateGrid.Json.Record
import GateGrid.Json.Writer

/-!
# Instructions in JSON

The direct form of qubits, classical bits, gates, operations and instructions: each type is read as a record, a choice
or a number, and written compactly. A circuit file uses a form of its own (`GateGrid.Circuit.File`).
-/

namespace GateGrid

open Json (Reader Value Field Record Choice)

/-! ### Wires -/

def Qubit.read : Reader Qubit := do
  return ⟨← Json.readNatural32⟩

def Clbit.read : Reader Clbit := do
  return ⟨← Json.readNatural32⟩

def Qubit.toJson (q : Qubit) : Value :=
  .number (.integer q.index.toNat)

def Clbit.toJson (c : Clbit) : Value :=
  .number (.integer c.index.toNat)

/-! ### Gates -/

/-- A gate some of whose fields may be missing. -/
structure GateDraft where
  name : Option String := none
  params : Option (List Float) := none
  label : Option (Option String) := none

/-- A gate must have a name; no angles and no label are the defaults. -/
def Gate.record : Record GateDraft Gate where
  name := "struct Gate"
  fields := [
    ⟨"name", (·.name.isSome), fun d => return { d with name := some (← Json.readString) }⟩,
    ⟨"params", (·.params.isSome), fun d => return { d with params := some (← Json.readListOf Json.readReal) }⟩,
    ⟨"label", (·.label.isSome), fun d => return { d with label := some (← Json.readStringOrNull) }⟩]
  blank := {}
  finish d := do
    return { name := ← Json.required "name" d.name, params := d.params.getD [], label := d.label.getD none }

def Gate.read : Reader Gate :=
  Gate.record.read

/-- The angles, unless there are none. -/
def Gate.paramMembers (g : Gate) : List (String × Value) :=
  if g.params.isEmpty then [] else [("params", .list (g.params.map fun x => .number (.real x)))]

/-- The label, if there is one. -/
def Gate.labelMembers (g : Gate) : List (String × Value) :=
  match g.label with
  | some label => [("label", .text label)]
  | none => []

def Gate.toJson (g : Gate) : Value :=
  .object (("name", .text g.name) :: g.paramMembers ++ g.labelMembers)

/-! ### Operations and instructions -/

/-- A gate has its record as content; the other operations are names. -/
def Operation.choices : List (Choice Operation) :=
  [.holding "Gate" (return .gate (← Gate.read)), .bare "Measure" .measure, .bare "Barrier" .barrier]

def Operation.read : Reader Operation :=
  Choice.read Operation.choices

def Operation.toJson : Operation → Value
  | .gate g => .object [("Gate", g.toJson)]
  | .measure => .text "Measure"
  | .barrier => .text "Barrier"

/-- An instruction some of whose fields may be missing. -/
structure InstructionDraft where
  operation : Option Operation := none
  qubits : Option (List Qubit) := none
  clbits : Option (List Clbit) := none

/-- An instruction must have all of its fields. -/
def Instruction.record : Record InstructionDraft Instruction where
  name := "struct Instruction"
  fields := [
    ⟨"kind", (·.operation.isSome), fun d => return { d with operation := some (← Operation.read) }⟩,
    ⟨"qubits", (·.qubits.isSome), fun d => return { d with qubits := some (← Json.readListOf Qubit.read) }⟩,
    ⟨"clbits", (·.clbits.isSome), fun d => return { d with clbits := some (← Json.readListOf Clbit.read) }⟩]
  blank := {}
  finish d := do
    return {
      operation := ← Json.required "kind" d.operation
      qubits := ← Json.required "qubits" d.qubits
      clbits := ← Json.required "clbits" d.clbits }

def Instruction.read : Reader Instruction :=
  Instruction.record.read

def Instruction.toJson (i : Instruction) : Value :=
  .object [("kind", i.operation.toJson), ("qubits", .list (i.qubits.map Qubit.toJson)),
    ("clbits", .list (i.clbits.map Clbit.toJson))]

end GateGrid
