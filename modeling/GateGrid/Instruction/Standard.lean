import GateGrid.Instruction.Basic

/-!
# The standard gates

A `StandardGate` carries its angles and operands; `StandardGate.instruction` spells it as a named gate.
-/

namespace GateGrid

/-- A gate of the standard set with its angles and operands. -/
inductive StandardGate where
  | id (q : Qubit)
  | h (q : Qubit)
  | x (q : Qubit)
  | y (q : Qubit)
  | z (q : Qubit)
  | s (q : Qubit)
  | sdg (q : Qubit)
  | t (q : Qubit)
  | tdg (q : Qubit)
  | sx (q : Qubit)
  | sxdg (q : Qubit)
  | rx (θ : Float) (q : Qubit)
  | ry (θ : Float) (q : Qubit)
  | rz (θ : Float) (q : Qubit)
  | u (θ φ lam : Float) (q : Qubit)
  | cx (control target : Qubit)
  | cy (control target : Qubit)
  | cz (control target : Qubit)
  | ch (control target : Qubit)
  | swap (q r : Qubit)
  | cu (θ φ lam γ : Float) (control target : Qubit)
  | cp (lam : Float) (control target : Qubit)
  | ccx (control control' target : Qubit)
  | cswap (control q r : Qubit)

/-- The named gate and its operands, the controls first. -/
def StandardGate.instruction : StandardGate → Instruction
  | .id q => .ofGate { name := "id" } [q]
  | .h q => .ofGate { name := "h" } [q]
  | .x q => .ofGate { name := "x" } [q]
  | .y q => .ofGate { name := "y" } [q]
  | .z q => .ofGate { name := "z" } [q]
  | .s q => .ofGate { name := "s" } [q]
  | .sdg q => .ofGate { name := "sdg" } [q]
  | .t q => .ofGate { name := "t" } [q]
  | .tdg q => .ofGate { name := "tdg" } [q]
  | .sx q => .ofGate { name := "sx" } [q]
  | .sxdg q => .ofGate { name := "sxdg" } [q]
  | .rx θ q => .ofGate { name := "rx", params := [θ] } [q]
  | .ry θ q => .ofGate { name := "ry", params := [θ] } [q]
  | .rz θ q => .ofGate { name := "rz", params := [θ] } [q]
  | .u θ φ lam q => .ofGate { name := "u", params := [θ, φ, lam] } [q]
  | .cx c target => .ofGate { name := "cx" } [c, target]
  | .cy c target => .ofGate { name := "cy" } [c, target]
  | .cz c target => .ofGate { name := "cz" } [c, target]
  | .ch c target => .ofGate { name := "ch" } [c, target]
  | .swap q r => .ofGate { name := "swap" } [q, r]
  | .cu θ φ lam γ c target => .ofGate { name := "cu", params := [θ, φ, lam, γ] } [c, target]
  | .cp lam c target => .ofGate { name := "cp", params := [lam] } [c, target]
  | .ccx c c' target => .ofGate { name := "ccx" } [c, c', target]
  | .cswap c q r => .ofGate { name := "cswap" } [c, q, r]

end GateGrid
