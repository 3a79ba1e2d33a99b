import GateGrid.Circuit.File
import GateGrid.Circuit.Standard
import GateGrid.Proofs.Circuit.Fits

/-!
# Reachable circuits

* `Call`: a call that extends a circuit; `Circuit.after c call` is the circuit behind it, also when the call fails.
* `Call.appended`: what a call that succeeds appends. So what holds of the instructions of a circuit and of those
  appended holds of all (`Circuit.forall_mem_after`).
* `Circuit.Reachable`: the circuits that come out of any number of calls, in any order, from an empty circuit, a
  standard circuit or a file.
* `Circuit.Extends c c'`: the registers have not shrunk and what has been appended fits them. Every call and every
  origin extends (`Circuit.extends_after`, `Circuit.extends_of_ofJson`, ...), so a reachable circuit is `Valid`: all
  its instructions fit its registers.
-/

namespace GateGrid

/-! ## Calls -/

/-- A call that extends a circuit. -/
inductive Call where
  | addQubit
  | addClbit
  | apply (i : Instruction)
  | standard (g : StandardGate)
  | gate (g : Gate) (qubits : List Qubit)
  | measure (q : Qubit) (b : Clbit)
  | measureAll
  | barrier (qubits : List Qubit)
  | barrierAll

/-- The result of a call. -/
def Call.run (c : Circuit) : Call → Except CircuitError Circuit
  | .addQubit => .ok c.addQubit.2
  | .addClbit => .ok c.addClbit.2
  | .apply i => c.apply i
  | .standard g => c.standard g
  | .gate g qubits => c.gate g qubits
  | .measure q b => c.measure [q] [b]
  | .measureAll => c.measureAll
  | .barrier qubits => c.barrier qubits
  | .barrierAll => c.barrierAll

/-- What the call appends to a circuit if it succeeds. -/
def Call.appended (c : Circuit) : Call → List Instruction
  | .addQubit => []
  | .addClbit => []
  | .apply i => [i]
  | .standard g => [g.instruction]
  | .gate g qubits => [.ofGate g qubits]
  | .measure q b => [.measure [q] [b]]
  | .measureAll => [.measure c.allQubits ((Circuit.indices c.numQubits).map Clbit.mk)]
  | .barrier qubits => [.barrier qubits]
  | .barrierAll => [.barrier c.allQubits]

/-- A full register does not take one more wire. -/
def Call.Allowed (c : Circuit) : Call → Prop
  | .addQubit => c.numQubits.toNat + 1 < UInt32.size
  | .addClbit => c.numClbits.toNat + 1 < UInt32.size
  | _ => True

namespace Circuit

/-- The circuit behind a call. A call that fails leaves it as it was, since calls check before they change anything. The
exception is `measureAll`, which declares classical bits first. It never fails (`run_measureAll`). -/
def after (c : Circuit) (call : Call) : Circuit :=
  match call.run c with
  | .ok c' => c'
  | .error _ => c

/-- No classical bits can be left behind by a measurement of all qubits that fails. -/
theorem run_measureAll (c : Circuit) : Call.measureAll.run c = .ok (c.after .measureAll) := by
  have hrun : Call.measureAll.run c = _ := c.measureAll_eq
  rw [after, hrun]

/-- The circuits that any calls lead to. -/
inductive Reachable : Circuit → Prop where
  | empty (name : String) : Reachable { name }
  | sized (name : String) (numQubits numClbits : UInt32) : Reachable { name, numQubits, numClbits }
  | bell {c : Circuit} : Circuit.bell = .ok c → Reachable c
  | ghz {c : Circuit} (n : UInt32) : Circuit.ghz n = .ok c → Reachable c
  | loaded {c : Circuit} (text : String) : Circuit.ofJson text = .ok c → Reachable c
  | call {c : Circuit} (call : Call) : Reachable c → call.Allowed c → Reachable (c.after call)

/-! ## What calls append -/

section Appended

variable {c c' : Circuit} {P : Instruction → Prop}

theorem instructions_of_apply {i : Instruction} (h : c.apply i = .ok c') : c'.instructions = c.instructions ++ [i] := by
  obtain ⟨-, rfl⟩ := apply_eq_ok_iff.mp h
  rfl

/-- The loop that declares classical bits leaves the instructions alone. -/
theorem instructions_of_measureAll (h : c.measureAll = .ok c') :
    c'.instructions = c.instructions ++ [.measure c.allQubits ((indices c.numQubits).map Clbit.mk)] := by
  rw [measureAll_eq_apply] at h
  exact instructions_of_apply (c := { c with numClbits := max c.numClbits c.numQubits }) h

theorem instructions_of_run {call : Call} (h : call.run c = .ok c') :
    c'.instructions = c.instructions ++ call.appended c := by
  cases call with
  | addQubit =>
    obtain rfl := Except.ok.inj h
    exact (List.append_nil _).symm
  | addClbit =>
    obtain rfl := Except.ok.inj h
    exact (List.append_nil _).symm
  | apply i => exact instructions_of_apply h
  | standard g => exact instructions_of_apply h
  | gate g qubits => exact instructions_of_apply h
  | measure q b => exact instructions_of_apply h
  | measureAll => exact instructions_of_measureAll h
  | barrier qubits => exact instructions_of_apply h
  | barrierAll => exact instructions_of_apply h

theorem forall_mem_of_append {added : List Instruction} (h : c'.instructions = c.instructions ++ added)
    (hc : ∀ i ∈ c.instructions, P i) (hadded : ∀ i ∈ added, P i) : ∀ i ∈ c'.instructions, P i := by
  rw [h]
  exact List.forall_mem_append.mpr ⟨hc, hadded⟩

/-- What holds of the instructions so far and of those appended holds of all, also when the call fails. -/
theorem forall_mem_after {call : Call} (hc : ∀ i ∈ c.instructions, P i) (hcall : ∀ i ∈ call.appended c, P i) :
    ∀ i ∈ (c.after call).instructions, P i := by
  unfold after
  split
  · rename_i c' h
    exact forall_mem_of_append (instructions_of_run h) hc hcall
  · exact hc

theorem forall_mem_of_apply {i : Instruction} (h : c.apply i = .ok c') (hc : ∀ j ∈ c.instructions, P j) (hi : P i) :
    ∀ j ∈ c'.instructions, P j :=
  forall_mem_of_append (instructions_of_apply h) hc (List.forall_mem_singleton.mpr hi)

theorem forall_mem_of_measureAll (h : c.measureAll = .ok c') (hc : ∀ i ∈ c.instructions, P i)
    (hmeasure : ∀ n qubits, P (.measure qubits ((indices n).map Clbit.mk))) : ∀ i ∈ c'.instructions, P i :=
  forall_mem_of_append (instructions_of_measureAll h) hc (List.forall_mem_singleton.mpr (hmeasure _ _))

/-- The steps of the Bell pair. -/
theorem exists_of_bell {c : Circuit} (h : bell = .ok c) :
    ∃ c₁ c₂, standard { name := "bell", numQubits := 2, numClbits := 2 } (.h ⟨0⟩) = .ok c₁ ∧
      c₁.standard (.cx ⟨0⟩ ⟨1⟩) = .ok c₂ ∧ c₂.measureAll = .ok c := by
  simp only [bell, Except.bind_eq_ok_iff] at h
  obtain ⟨c₁, h₁, c₂, h₂, hmeasured⟩ := h
  exact ⟨c₁, c₂, h₁, h₂, hmeasured⟩

/-- The steps of a GHZ state, if there are qubits. -/
theorem exists_of_ghz {c : Circuit} {n : UInt32} (h : ghz n = .ok c) :
    ∃ name, c = { name, numQubits := n, numClbits := n } ∨
      ∃ (gates : List StandardGate) (c₁ : Circuit),
        applyAll { name, numQubits := n, numClbits := n } (gates.map (·.instruction)) = .ok c₁ ∧
          c₁.measureAll = .ok c := by
  refine ⟨s!"ghz_{n.toNat}", ?_⟩
  simp only [ghz] at h
  split at h
  · exact Or.inl (Except.pure_eq_ok_iff.mp h).symm
  · obtain ⟨c₁, h₁, hmeasured⟩ := Except.bind_eq_ok_iff.mp h
    exact Or.inr ⟨_, c₁, h₁, hmeasured⟩

theorem forall_mem_of_bell (h : bell = .ok c) (hgate : ∀ g : StandardGate, P g.instruction)
    (hmeasure : ∀ n qubits, P (.measure qubits ((indices n).map Clbit.mk))) : ∀ i ∈ c.instructions, P i := by
  obtain ⟨c₁, c₂, h₁, h₂, hmeasured⟩ := exists_of_bell h
  have hc₁ : ∀ i ∈ c₁.instructions, P i := forall_mem_of_apply h₁ (List.forall_mem_nil _) (hgate _)
  exact forall_mem_of_measureAll hmeasured (forall_mem_of_apply h₂ hc₁ (hgate _)) hmeasure

theorem forall_mem_of_ghz {n : UInt32} (h : ghz n = .ok c) (hgate : ∀ g : StandardGate, P g.instruction)
    (hmeasure : ∀ n qubits, P (.measure qubits ((indices n).map Clbit.mk))) : ∀ i ∈ c.instructions, P i := by
  obtain ⟨name, rfl | ⟨gates, c₁, h₁, hmeasured⟩⟩ := exists_of_ghz h
  · exact List.forall_mem_nil _
  · obtain ⟨-, rfl⟩ := applyAll_eq_ok_iff.mp h₁
    refine forall_mem_of_measureAll hmeasured (fun i hi => ?_) hmeasure
    obtain ⟨g, -, rfl⟩ := List.mem_map.mp hi
    exact hgate g

end Appended

/-! ## What calls keep -/

/-- All instructions fit the registers. -/
def Valid (c : Circuit) : Prop :=
  ∀ i ∈ c.instructions, i.Fits c.numQubits c.numClbits

/-- No register has shrunk, and the instructions appended fit the new registers. -/
structure Extends (c c' : Circuit) : Prop where
  numQubits_le : c.numQubits ≤ c'.numQubits
  numClbits_le : c.numClbits ≤ c'.numClbits
  appended : ∃ added, c'.instructions = c.instructions ++ added ∧
    ∀ i ∈ added, i.Fits c'.numQubits c'.numClbits

theorem Extends.refl (c : Circuit) : c.Extends c :=
  ⟨UInt32.le_refl _, UInt32.le_refl _, [], by simp, by simp⟩

theorem Extends.trans {c c' c'' : Circuit} (h : c.Extends c') (h' : c'.Extends c'') : c.Extends c'' := by
  obtain ⟨added, he, hf⟩ := h.appended
  obtain ⟨added', he', hf'⟩ := h'.appended
  refine ⟨UInt32.le_trans h.numQubits_le h'.numQubits_le,
    UInt32.le_trans h.numClbits_le h'.numClbits_le, added ++ added', by rw [he', he, List.append_assoc], ?_⟩
  intro i hi
  rcases List.mem_append.mp hi with hi | hi
  · exact (hf i hi).mono h'.numQubits_le h'.numClbits_le
  · exact hf' i hi

/-- The instructions from before fit the larger registers too. -/
theorem Extends.valid {c c' : Circuit} (h : c.Extends c') (hc : c.Valid) : c'.Valid := by
  obtain ⟨added, he, hf⟩ := h.appended
  intro i hi
  rw [he] at hi
  rcases List.mem_append.mp hi with hi | hi
  · exact (hc i hi).mono h.numQubits_le h.numClbits_le
  · exact hf i hi

theorem extends_of_applyAll {c c' : Circuit} {instructions : List Instruction}
    (h : c.applyAll instructions = .ok c') : c.Extends c' := by
  obtain ⟨hf, rfl⟩ := applyAll_eq_ok_iff.mp h
  exact ⟨UInt32.le_refl _, UInt32.le_refl _, instructions, rfl, hf⟩

theorem extends_of_apply {c c' : Circuit} {i : Instruction} (h : c.apply i = .ok c') : c.Extends c' := by
  obtain ⟨hf, rfl⟩ := apply_eq_ok_iff.mp h
  exact ⟨UInt32.le_refl _, UInt32.le_refl _, [i], rfl, by simpa using hf⟩

/-- The classical register grows first, and the measurement is checked against the grown one. -/
theorem extends_of_measureAll {c c' : Circuit} (h : c.measureAll = .ok c') : c.Extends c' := by
  have hgrow : c.Extends { c with numClbits := max c.numClbits c.numQubits } :=
    ⟨UInt32.le_refl _, (le_max_size _ _).1, [], by simp, by simp⟩
  rw [measureAll_eq_apply] at h
  exact hgrow.trans (extends_of_apply h)

/-- A register that is not full grows. -/
theorem le_add_one {n : UInt32} (h : n.toNat + 1 < UInt32.size) : n ≤ n + 1 := by
  rw [UInt32.le_iff_toNat_le, toNat_add_one h]
  omega

theorem extends_addQubit {c : Circuit} (h : c.numQubits.toNat + 1 < UInt32.size) :
    c.Extends c.addQubit.2 :=
  ⟨le_add_one h, UInt32.le_refl _, [], by simp [addQubit], by simp⟩

theorem extends_addClbit {c : Circuit} (h : c.numClbits.toNat + 1 < UInt32.size) :
    c.Extends c.addClbit.2 :=
  ⟨UInt32.le_refl _, le_add_one h, [], by simp [addClbit], by simp⟩

theorem extends_of_run {c c' : Circuit} {call : Call} (ha : call.Allowed c) (h : call.run c = .ok c') :
    c.Extends c' := by
  cases call with
  | addQubit =>
    obtain rfl := Except.ok.inj h
    exact extends_addQubit ha
  | addClbit =>
    obtain rfl := Except.ok.inj h
    exact extends_addClbit ha
  | apply i => exact extends_of_apply h
  | standard g => exact extends_of_apply h
  | gate g qubits => exact extends_of_apply h
  | measure q b => exact extends_of_apply h
  | measureAll => exact extends_of_measureAll h
  | barrier qubits => exact extends_of_apply h
  | barrierAll => exact extends_of_apply h

theorem extends_after {c : Circuit} {call : Call} (ha : call.Allowed c) : c.Extends (c.after call) := by
  unfold after
  split
  · rename_i c' h
    exact extends_of_run ha h
  · exact Extends.refl c

/-! ## Where circuits start -/

theorem extends_of_bell {c : Circuit} (h : bell = .ok c) :
    Extends { name := "bell", numQubits := 2, numClbits := 2 } c := by
  obtain ⟨c₁, c₂, h₁, h₂, hmeasured⟩ := exists_of_bell h
  exact (extends_of_apply h₁).trans ((extends_of_apply h₂).trans (extends_of_measureAll hmeasured))

theorem extends_of_ghz {c : Circuit} {n : UInt32} (h : ghz n = .ok c) :
    ∃ name, Extends { name, numQubits := n, numClbits := n } c := by
  obtain ⟨name, rfl | ⟨gates, c₁, h₁, hmeasured⟩⟩ := exists_of_ghz h
  · exact ⟨name, Extends.refl _⟩
  · exact ⟨name, (extends_of_applyAll h₁).trans (extends_of_measureAll hmeasured)⟩

theorem extends_of_ofJson {c : Circuit} {text : String} (h : ofJson text = .ok c) :
    ∃ name n m, Extends { name, numQubits := n, numClbits := m } c := by
  unfold ofJson at h
  split at h
  · cases h
  rename_i file _
  exact ⟨file.name, file.numQubits, file.numClbits, extends_of_applyAll h⟩

theorem valid_of_extends {name : String} {n m : UInt32} {c : Circuit}
    (h : Extends { name, numQubits := n, numClbits := m } c) : c.Valid :=
  h.valid fun _ hi => absurd hi List.not_mem_nil

theorem Reachable.valid {c : Circuit} (h : c.Reachable) : c.Valid := by
  induction h with
  | empty name => exact valid_of_extends (Extends.refl { name })
  | sized name n m => exact valid_of_extends (Extends.refl _)
  | bell h => exact valid_of_extends (extends_of_bell h)
  | ghz n h =>
    obtain ⟨name, he⟩ := extends_of_ghz h
    exact valid_of_extends he
  | loaded text h =>
    obtain ⟨name, n, m, he⟩ := extends_of_ofJson h
    exact valid_of_extends he
  | call call _ ha ih => exact (extends_after ha).valid ih

/-- **Operands of reachable circuits**: whichever calls failed on the way and however the registers grew, every
instruction names declared wires only, no qubit twice, and a measurement as many classical bits as qubits. -/
theorem operands_of_reachable {c : Circuit} (h : c.Reachable) {i : Instruction} (hi : i ∈ c.instructions) :
    (∀ q ∈ i.qubits, q.index < c.numQubits) ∧ i.qubits.Nodup ∧ (∀ b ∈ i.clbits, b.index < c.numClbits) ∧
      (i.isMeasure = true → i.clbits.length = i.qubits.length) := by
  have hf := h.valid i hi
  exact ⟨hf.qubits_lt, hf.qubits_nodup, hf.clbits_lt, hf.counts⟩

/-- The first gate fails, the register of classical bits grows with the measurement. -/
theorem operands_of_reachable_regrown :
    let c := (((({ name := "regrown", numQubits := 1 } : Circuit).after .addQubit).after
      (.standard (.cx ⟨0⟩ ⟨0⟩))).after (.standard (.cx ⟨0⟩ ⟨1⟩))).after .measureAll
    let i := Instruction.measure [⟨0⟩, ⟨1⟩] [⟨0⟩, ⟨1⟩]
    c.instructions = [StandardGate.instruction (.cx ⟨0⟩ ⟨1⟩), i] ∧
      (∀ q ∈ i.qubits, q.index < c.numQubits) ∧ i.qubits.Nodup ∧ (∀ b ∈ i.clbits, b.index < c.numClbits) ∧
        (i.isMeasure = true → i.clbits.length = i.qubits.length) := by
  intro c i
  have hroom : Call.Allowed { name := "regrown", numQubits := 1 } .addQubit :=
    (by decide : 1 + 1 < UInt32.size)
  have hc : c.Reachable :=
    .call _ (.call _ (.call _ (.call _ (.sized "regrown" 1 0) hroom) trivial) trivial) trivial
  have hi : c.instructions = [StandardGate.instruction (.cx ⟨0⟩ ⟨1⟩), i] := by with_unfolding_all rfl
  have hmem : i ∈ c.instructions := by
    rw [hi]
    simp
  exact ⟨hi, operands_of_reachable hc hmem⟩

end Circuit

end GateGrid
