import GateGrid.Circuit.Basic
import GateGrid.Script.Header
import GateGrid.Script.Log
import GateGrid.Script.Row

/-!
# Scripts

A `Script` states the declared number of qubits and holds a block for each gate of a circuit in program order. It is
written instruction by instruction, up to the first that cannot be written, and the log is told of each.

Measurements and barriers have no block. They are told by name, so a gate of such a name has none either.
-/

namespace GateGrid

/-- A row under its header, if it has one. -/
structure Block where
  header : Option Header
  row : List Char

/-- The header line, if there is one, and the row. -/
def Block.text (b : Block) : String :=
  match b.header with
  | some h => h.text ++ "\n" ++ String.ofList b.row
  | none => String.ofList b.row

/-- What a circuit is written as. -/
structure Script where
  numQubits : Nat
  blocks : List Block

/-- The number of qubits on a line of its own, then the blocks. -/
def Script.text (s : Script) : String :=
  s!"# {s.numQubits}\n" ++ ",\n".intercalate (s.blocks.map Block.text) ++ ":"

namespace Instruction

/-- The gate of the table that an instruction names. -/
def symbol (i : Instruction) : Except EncodeError Symbol :=
  match Symbol.ofName? i.name with
  | some symbol => .ok symbol
  | none => .error (.unknownGate i.name)

/-- Writes an instruction as a row of the given width. The gate must be known, its operands must fit the row, and its
angles must fit the header, in this order. It is reported behind the last of these checks. -/
def encode (policy : Policy) (width : Nat) (i : Instruction) : Logged (Option Block) :=
  if i.name = "barrier" ∨ i.name = "measure" then do
    Logged.emit (.skipped i.name)
    return none
  else do
    let symbol ← i.symbol
    let row ← symbol.row i.qubits width
    let header ← symbol.header policy i.params
    Logged.emit (.encoded symbol row)
    return some ⟨header, row⟩

end Instruction

/-- All instructions but those named `measure`. -/
def withoutMeasurements (instructions : List Instruction) : List Instruction :=
  instructions.filter (·.name != "measure")

/-- Writes instructions up to the first that cannot be written. -/
def encodeAll (policy : Policy) (width : Nat) : List Instruction → Logged (List Block)
  | [] => return []
  | i :: rest => do
    let block? ← i.encode policy width
    let blocks ← encodeAll policy width rest
    return block?.toList ++ blocks

namespace Circuit

/-- Writes a circuit. -/
def encode (policy : Policy) (c : Circuit) : Logged Script := do
  Logged.enter c.name
  let kept := withoutMeasurements c.instructions
  let width := rowWidth kept
  Logged.emit (.started kept.length c.numQubits.toNat width)
  let blocks ← encodeAll policy width kept
  Logged.emit (.finished blocks.length)
  return ⟨c.numQubits.toNat, blocks⟩

/-- The script of a circuit. -/
def script (policy : Policy) (c : Circuit) : Except EncodeError Script :=
  (c.encode policy).result

/-- The script of a circuit as the text of a file. -/
def fileString (policy : Policy) (c : Circuit) : Except EncodeError String :=
  (c.script policy).map Script.text

end Circuit

end GateGrid
