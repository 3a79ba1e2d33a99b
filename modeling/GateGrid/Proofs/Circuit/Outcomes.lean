import GateGrid.Proofs.Circuit.Reachable

/-!
# Where measurements write

In the checks of a circuit no qubit may stand twice in an instruction. A classical bit may: it only has to be declared.

* `Instruction.WritesApart`: a measurement writes no two outcomes to one classical bit.
* `Circuit.Careful`: the circuits that calls and files lead to none of which asks for a measurement that does not write
  apart. They are the reachable circuits where every measurement writes apart (`Circuit.careful_iff`).
* `Circuit.not_writesApart_after`: every circuit of two qubits and a classical bit can be extended by a measurement that
  does not.
-/

namespace GateGrid

/-- If it is a measurement, each outcome has a classical bit of its own. -/
def Instruction.WritesApart (i : Instruction) : Prop :=
  i.isMeasure = true → i.clbits.Nodup

theorem Instruction.writesApart_of_not_isMeasure {i : Instruction} (h : i.isMeasure = false) : i.WritesApart :=
  fun hm => absurd (h.symm.trans hm) Bool.false_ne_true

theorem StandardGate.writesApart (g : StandardGate) : g.instruction.WritesApart :=
  Instruction.writesApart_of_not_isMeasure (by cases g <;> rfl)

/-! ## Calls -/

/-- The call does not ask for a measurement with a repeated classical bit. The other measuring calls have no way to. -/
def Call.Careful : Call → Prop
  | .apply i => i.WritesApart
  | _ => True

theorem Circuit.writesApart_all (n : UInt32) (qubits : List Qubit) :
    (Instruction.measure qubits ((indices n).map Clbit.mk)).WritesApart :=
  fun _ => (indices_nodup n).map fun _ _ h => congrArg Clbit.index h

theorem Call.Careful.writesApart {call : Call} (h : call.Careful) (c : Circuit) :
    ∀ i ∈ call.appended c, i.WritesApart := by
  cases call with
  | addQubit => exact List.forall_mem_nil _
  | addClbit => exact List.forall_mem_nil _
  | apply i => exact List.forall_mem_singleton.mpr h
  | standard g => exact List.forall_mem_singleton.mpr g.writesApart
  | gate g qubits => exact List.forall_mem_singleton.mpr (Instruction.writesApart_of_not_isMeasure rfl)
  | measure q b => exact List.forall_mem_singleton.mpr fun _ => List.nodup_singleton b
  | measureAll => exact List.forall_mem_singleton.mpr (Circuit.writesApart_all _ _)
  | barrier qubits => exact List.forall_mem_singleton.mpr (Instruction.writesApart_of_not_isMeasure rfl)
  | barrierAll => exact List.forall_mem_singleton.mpr (Instruction.writesApart_of_not_isMeasure rfl)

/-! ## Circuits -/

namespace Circuit

variable {c : Circuit}

/-- Every measurement writes apart. -/
def WritesApart (c : Circuit) : Prop :=
  ∀ i ∈ c.instructions, i.WritesApart

theorem writesApart_after {call : Call} (hcall : call.Careful) (hc : c.WritesApart) :
    (c.after call).WritesApart :=
  forall_mem_after hc (hcall.writesApart c)

theorem writesApart_sized (name : String) (n m : UInt32) : WritesApart { name, numQubits := n, numClbits := m } :=
  List.forall_mem_nil _

/-- The file of a text, before its instructions are checked. -/
theorem exists_file_of_ofJson {text : String} (h : ofJson text = .ok c) :
    ∃ file, Json.Reader.document record.read text = .ok file ∧ c.instructions = file.instructions := by
  unfold ofJson at h
  split at h
  · cases h
  · rename_i file hfile
    obtain ⟨-, rfl⟩ := applyAll_eq_ok_iff.mp h
    exact ⟨file, hfile, List.nil_append _⟩

/-- The circuits that are reached with care: of the files and of the applied instructions none has a measurement that
does not write apart. -/
inductive Careful : Circuit → Prop where
  | empty (name : String) : Careful { name }
  | sized (name : String) (numQubits numClbits : UInt32) : Careful { name, numQubits, numClbits }
  | bell {c : Circuit} : Circuit.bell = .ok c → Careful c
  | ghz {c : Circuit} (n : UInt32) : Circuit.ghz n = .ok c → Careful c
  | loaded {c file : Circuit} (text : String) : Json.Reader.document record.read text = .ok file →
      file.WritesApart → Circuit.ofJson text = .ok c → Careful c
  | call {c : Circuit} (call : Call) : Careful c → call.Allowed c → call.Careful → Careful (c.after call)

theorem Careful.reachable (h : c.Careful) : c.Reachable := by
  induction h with
  | empty name => exact .empty name
  | sized name n m => exact .sized name n m
  | bell h => exact .bell h
  | ghz n h => exact .ghz n h
  | loaded text _ _ h => exact .loaded text h
  | call call _ ha _ ih => exact .call call ih ha

theorem Careful.writesApart (h : c.Careful) : c.WritesApart := by
  induction h with
  | empty name => exact writesApart_sized name 0 0
  | sized name n m => exact writesApart_sized name n m
  | bell h => exact forall_mem_of_bell h StandardGate.writesApart writesApart_all
  | ghz n h => exact forall_mem_of_ghz h StandardGate.writesApart writesApart_all
  | loaded text hfile hapart h =>
    obtain ⟨file, hfile', hinstructions⟩ := exists_file_of_ofJson h
    obtain rfl := Except.ok.inj (hfile.symm.trans hfile')
    rw [WritesApart, hinstructions]
    exact hapart
  | call call _ _ hcall ih => exact writesApart_after hcall ih

/-- A call that appends nothing it should not is careful, and one that is not careful fails. -/
theorem careful_after {call : Call} (hcareful : c.WritesApart → c.Careful) (ha : call.Allowed c)
    (h : (c.after call).WritesApart) : (c.after call).Careful := by
  cases hr : call.run c with
  | error e =>
    have hsame : c.after call = c := by rw [after, hr]
    rw [hsame] at h ⊢
    exact hcareful h
  | ok c' =>
    have hafter : c.after call = c' := by rw [after, hr]
    have happart := h
    rw [hafter, WritesApart, instructions_of_run hr, List.forall_mem_append] at happart
    refine .call call (hcareful happart.1) ha ?_
    cases call with
    | apply i => exact happart.2 i (List.mem_singleton_self i)
    | _ => trivial

theorem Reachable.careful (h : c.Reachable) (hc : c.WritesApart) : c.Careful := by
  induction h with
  | empty name => exact .empty name
  | sized name n m => exact .sized name n m
  | bell h => exact .bell h
  | ghz n h => exact .ghz n h
  | loaded text h =>
    obtain ⟨file, hfile, hinstructions⟩ := exists_file_of_ofJson h
    rw [WritesApart, hinstructions] at hc
    exact .loaded text hfile hc h
  | call call _ ha ih => exact careful_after ih ha hc

/-- **Repeated classical bits**: the qubits of a measurement are distinct in every reachable circuit, and its classical
bits are where the files and the applied instructions on the way there had them so. -/
theorem careful_iff (c : Circuit) :
    c.Careful ↔ c.Reachable ∧ ∀ i ∈ c.instructions, i.isMeasure = true → i.qubits.Nodup ∧ i.clbits.Nodup := by
  constructor
  · intro h
    exact ⟨h.reachable, fun i hi hm => ⟨(h.reachable.valid i hi).qubits_nodup, h.writesApart i hi hm⟩⟩
  · rintro ⟨h, hdistinct⟩
    exact h.careful fun i hi hm => (hdistinct i hi hm).2

/-- The checks let a measurement of two qubits into one classical bit pass. -/
theorem not_writesApart_after (hq : 1 < c.numQubits) (hb : 0 < c.numClbits) :
    ¬ (c.after (.apply (.measure [⟨0⟩, ⟨1⟩] [⟨0⟩, ⟨0⟩]))).WritesApart := by
  have hfits : (Instruction.measure [⟨0⟩, ⟨1⟩] [⟨0⟩, ⟨0⟩]).Fits c.numQubits c.numClbits := by
    refine ⟨?_, by decide, ?_, fun _ => rfl⟩
    · exact List.forall_mem_cons.mpr ⟨UInt32.lt_trans (by decide) hq, List.forall_mem_singleton.mpr hq⟩
    · exact List.forall_mem_cons.mpr ⟨hb, List.forall_mem_singleton.mpr hb⟩
  have hrun := apply_eq_ok_iff.mpr ⟨hfits, rfl⟩
  intro h
  rw [after, Call.run, hrun] at h
  have hapart := h _ (List.mem_append_right _ (List.mem_singleton_self _)) rfl
  exact absurd hapart (by decide)

/-- Two measurements into one classical bit: loaded, and applied to a circuit. -/
theorem repeated_clbit :
    let text :=
      "\x7b\"num_qubits\":2,\"num_clbits\":1,\"instructions\":[\x7b\"measure\":[0,1],\"clbits\":[0,0]\x7d]\x7d"
    let c := ({ name := "pair", numQubits := 2, numClbits := 1 } : Circuit).after
      (.apply (.measure [⟨0⟩, ⟨1⟩] [⟨0⟩, ⟨0⟩]))
    (∃ loaded, ofJson text = .ok loaded ∧ loaded.Reachable ∧
      ∃ i ∈ loaded.instructions, i.isMeasure = true ∧ ¬ i.clbits.Nodup) ∧
      c.Reachable ∧ ¬ ∀ i ∈ c.instructions, i.isMeasure = true → i.qubits.Nodup ∧ i.clbits.Nodup := by
  intro text c
  have hloaded : ((ofJson text).toOption.any fun loaded =>
      decide (∃ i ∈ loaded.instructions, i.isMeasure = true ∧ ¬ i.clbits.Nodup)) = true := by
    decide +kernel +zetaReduce
  have hc : c.Reachable := .call _ (.sized "pair" 2 1) trivial
  refine ⟨?_, hc, fun h => not_writesApart_after (by decide) (by decide) fun i hi hm => (h i hi hm).2⟩
  cases hj : ofJson text with
  | error e =>
    rw [hj] at hloaded
    cases hloaded
  | ok loaded =>
    rw [hj] at hloaded
    exact ⟨loaded, rfl, .loaded text hj, of_decide_eq_true hloaded⟩

end Circuit

end GateGrid
