import GateGrid.Proofs.Circuit.Reachable
import GateGrid.Proofs.Script.Encodable
import GateGrid.Script.Compact

/-!
# Circuits of standard gates

* `Circuit.Built`: the circuits that any calls lead to which take no gate or instruction of the caller's own making.
* `StandardGate.symbol`: the entry of the gate table for a standard gate. The gate and its entry agree in the name, in
  the number of operands and in the number of angles.
* `Circuit.IsStandard`: all instructions are standard gates, measurements and barriers. Every such call keeps this, and
  it leaves nothing that a script has no block for, so a circuit that is built always has a script.
-/

namespace GateGrid

/-! ## Two tables of gates -/

namespace StandardGate

/-- The entry of the gate table. -/
def symbol : StandardGate → Symbol
  | .id _ => .id
  | .h _ => .h
  | .x _ => .x
  | .y _ => .y
  | .z _ => .z
  | .s _ => .s
  | .sdg _ => .sdg
  | .t _ => .t
  | .tdg _ => .tdg
  | .sx _ => .sx
  | .sxdg _ => .sxdg
  | .rx _ _ => .rx
  | .ry _ _ => .ry
  | .rz _ _ => .rz
  | .u _ _ _ _ => .u
  | .cx _ _ => .cx
  | .cy _ _ => .cy
  | .cz _ _ => .cz
  | .ch _ _ => .ch
  | .swap _ _ => .swap
  | .cu _ _ _ _ _ _ => .cu
  | .cp _ _ _ => .cp
  | .ccx _ _ _ => .ccx
  | .cswap _ _ _ => .cswap

theorem name_symbol (g : StandardGate) : g.symbol.name = g.instruction.name := by
  cases g <;> rfl

theorem length_qubits (g : StandardGate) : g.instruction.qubits.length = g.symbol.codes.length := by
  cases g <;> rfl

theorem anglesFit (g : StandardGate) : AnglesFit g.instruction.name g.instruction.params.length := by
  rw [← name_symbol]
  cases g <;> simp [AnglesFit, symbol, Symbol.name, instruction, Instruction.ofGate, Instruction.params]

end StandardGate

/-! ## Calls -/

/-- The call takes no gate and no instruction of the caller's own making. -/
def Call.IsStandard : Call → Prop
  | .apply _ => False
  | .gate _ _ => False
  | _ => True

namespace Circuit

/-- The circuits that such calls lead to, whether they succeed or fail, from an empty or a standard circuit. -/
inductive Built : Circuit → Prop where
  | empty (name : String) : Built { name }
  | sized (name : String) (numQubits numClbits : UInt32) : Built { name, numQubits, numClbits }
  | bell {c : Circuit} : Circuit.bell = .ok c → Built c
  | ghz {c : Circuit} (n : UInt32) : Circuit.ghz n = .ok c → Built c
  | call {c : Circuit} (call : Call) : Built c → call.IsStandard → Built (c.after call)

end Circuit

/-! ## What the calls keep -/

/-- A standard gate, a measurement or a barrier. -/
inductive Instruction.IsStandard : Instruction → Prop where
  | gate (g : StandardGate) : IsStandard g.instruction
  | measure (qubits : List Qubit) (clbits : List Clbit) : IsStandard (.measure qubits clbits)
  | barrier (qubits : List Qubit) : IsStandard (.barrier qubits)

/-- Measurements and barriers have no block, and a standard gate is as its entry of the table asks for. -/
theorem Instruction.IsStandard.passes {i : Instruction} (h : i.IsStandard) (policy : Policy) : i.Passes policy := by
  intro hb
  cases h with
  | gate g => exact ⟨g.symbol, g.name_symbol, Or.inr g.length_qubits, fun _ => g.anglesFit⟩
  | measure qubits clbits => cases hb
  | barrier qubits => cases hb

theorem Call.IsStandard.appended {call : Call} (h : call.IsStandard) (c : Circuit) :
    ∀ i ∈ call.appended c, i.IsStandard := by
  cases call with
  | addQubit => exact List.forall_mem_nil _
  | addClbit => exact List.forall_mem_nil _
  | apply i => exact h.elim
  | standard g => exact List.forall_mem_singleton.mpr (.gate g)
  | gate g qubits => exact h.elim
  | measure q b => exact List.forall_mem_singleton.mpr (.measure _ _)
  | measureAll => exact List.forall_mem_singleton.mpr (.measure _ _)
  | barrier qubits => exact List.forall_mem_singleton.mpr (.barrier _)
  | barrierAll => exact List.forall_mem_singleton.mpr (.barrier _)

namespace Circuit

/-- All instructions are standard. -/
def IsStandard (c : Circuit) : Prop :=
  ∀ i ∈ c.instructions, i.IsStandard

variable {c : Circuit}

theorem IsStandard.after (h : c.IsStandard) {call : Call} (hcall : call.IsStandard) : (c.after call).IsStandard :=
  forall_mem_after h (hcall.appended c)

theorem isStandard_sized (name : String) (n m : UInt32) : IsStandard { name, numQubits := n, numClbits := m } :=
  fun _ hi => absurd hi List.not_mem_nil

theorem Built.isStandard (h : c.Built) : c.IsStandard := by
  induction h with
  | empty name => exact isStandard_sized name 0 0
  | sized name n m => exact isStandard_sized name n m
  | bell h => exact forall_mem_of_bell h .gate fun _ _ => .measure _ _
  | ghz n h => exact forall_mem_of_ghz h .gate fun _ _ => .measure _ _
  | call call _ hcall ih => exact ih.after hcall

/-- **Whatever is built has a script**: under the settings that hold by default, a circuit of standard gates is written
as a file and in the compact form, whichever calls failed on the way and whatever the angles are. -/
theorem exists_fileString_of_built (h : c.Built) :
    (∃ text, c.fileString ({} : Settings).policy = .ok text) ∧
      ∃ text, c.compactString ({} : Settings).policy = .ok text := by
  obtain ⟨text, htext⟩ : ∃ text, c.fileString ({} : Settings).policy = .ok text :=
    exists_fileString_iff.mpr fun i hi => (h.isStandard i hi).passes _
  exact ⟨⟨text, htext⟩, _, by rw [compactString, htext, Except.map]⟩

/-- Two calls fail, one for a qubit that is not declared yet and one for a qubit that stands twice; an angle is NaN and
one is infinite. -/
theorem exists_fileString_of_built_mixed :
    let c := ((((((({ name := "mixed", numQubits := 1 } : Circuit).after (.standard (.cx ⟨0⟩ ⟨1⟩))).after
      .addQubit).after (.standard (.swap ⟨1⟩ ⟨1⟩))).after (.standard (.cu (0 / 0) 1 2 (1 / 0) ⟨1⟩ ⟨0⟩))).after
      .measureAll).after .barrierAll).after (.standard (.ry (1 / 0) ⟨0⟩))
    c.Built ∧ c.instructions.length = 4 ∧ (∃ text, c.fileString ({} : Settings).policy = .ok text) ∧
      ∃ text, c.compactString ({} : Settings).policy = .ok text := by
  intro c
  have hc : c.Built :=
    .call _ (.call _ (.call _ (.call _ (.call _ (.call _ (.call _ (.sized "mixed" 1 0) trivial) trivial) trivial)
      trivial) trivial) trivial) trivial
  exact ⟨hc, by with_unfolding_all rfl, exists_fileString_of_built hc⟩

end Circuit

end GateGrid
