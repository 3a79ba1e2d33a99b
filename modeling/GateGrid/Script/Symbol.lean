/-!
# The gate table

`Symbol` lists the gates that a script can spell. Each has a name, one cell code for each operand, and perhaps a header
of three angles.
-/

namespace GateGrid

/-- A gate that a script can spell. -/
inductive Symbol where
  | id
  | x
  | y
  | z
  | h
  | s
  | sdg
  | t
  | tdg
  | sx
  | sxdg
  | rx
  | ry
  | rz
  | u
  | cx
  | cy
  | cz
  | ch
  | swap
  | cu
  | cp
  | ccx
  | cswap
deriving DecidableEq

namespace Symbol

/-- The table in its order. -/
def all : List Symbol :=
  [.id, .x, .y, .z, .h, .s, .sdg, .t, .tdg, .sx, .sxdg, .rx, .ry, .rz, .u, .cx, .cy, .cz, .ch, .swap, .cu, .cp, .ccx,
    .cswap]

def name : Symbol → String
  | .id => "id"
  | .x => "x"
  | .y => "y"
  | .z => "z"
  | .h => "h"
  | .s => "s"
  | .sdg => "sdg"
  | .t => "t"
  | .tdg => "tdg"
  | .sx => "sx"
  | .sxdg => "sxdg"
  | .rx => "rx"
  | .ry => "ry"
  | .rz => "rz"
  | .u => "u"
  | .cx => "cx"
  | .cy => "cy"
  | .cz => "cz"
  | .ch => "ch"
  | .swap => "swap"
  | .cu => "cu"
  | .cp => "cp"
  | .ccx => "ccx"
  | .cswap => "cswap"

/-- The codes of the operands in their order: `C` on a control, `W` on a swapped qubit, and a letter of the gate. -/
def codes : Symbol → List Char
  | .id => ['I']
  | .x => ['X']
  | .y => ['Y']
  | .z => ['Z']
  | .h => ['H']
  | .s => ['S']
  | .sdg => ['s']
  | .t => ['T']
  | .tdg => ['t']
  | .sx => ['V']
  | .sxdg => ['v']
  | .rx => ['x']
  | .ry => ['U']
  | .rz => ['z']
  | .u => ['U']
  | .cx => ['C', 'X']
  | .cy => ['C', 'Y']
  | .cz => ['C', 'Z']
  | .ch => ['C', 'H']
  | .swap => ['W', 'W']
  | .cu => ['C', 'U']
  | .cp => ['C', 'U']
  | .ccx => ['C', 'C', 'X']
  | .cswap => ['C', 'W', 'W']

/-- The number of operands. -/
def numQubits (symbol : Symbol) : Nat :=
  symbol.codes.length

/-- Rows of this gate stand under a header. -/
def hasHeader : Symbol → Bool
  | .ry => true
  | .u => true
  | .cu => true
  | .cp => true
  | _ => false

/-- The gate of this name; case matters. -/
def ofName? (name : String) : Option Symbol :=
  all.find? (·.name == name)

end Symbol

end GateGrid
