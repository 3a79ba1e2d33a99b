import GateGrid.Proofs.Script.Append

/-!
# Programs without measurements and barriers

* `Circuit.without`: the circuit without the instructions of certain names, wherever they stand.
* `Circuit.width_without_le`: leaving instructions out makes no row wider.
* `Circuit.script_of_script_without`: the blocks of a circuit are those of the circuit without its measurements and
  barriers, widened.
* `Circuit.fileString_without`: measurements never show in a script, and barriers only in the width of its rows.
-/

namespace GateGrid

/-! ## Fewer instructions -/

/-- Blocks that have the width already stay as they are. -/
theorem map_widen_of_length {width : Nat} {blocks : List Block} (h : ∀ b ∈ blocks, b.row.length = width) :
    blocks.map (Block.widen width) = blocks := by
  refine (List.map_congr_left fun b hb => ?_).trans (List.map_id blocks)
  rw [Block.widen, h b hb, Nat.sub_self, List.replicate_zero, List.append_nil]
  rfl

namespace Circuit

variable {policy : Policy} {c : Circuit} {names : List String}

/-- The circuit without the instructions of these names. -/
def without (c : Circuit) (names : List String) : Circuit :=
  { c with instructions := c.instructions.filter fun i => i.name ∉ names }

theorem mem_without {i : Instruction} :
    i ∈ (c.without names).instructions ↔ i ∈ c.instructions ∧ i.name ∉ names := by
  rw [without, List.mem_filter, decide_eq_true_eq]

/-! ### Measurements -/

/-- Measurements are left out before anything else is done. -/
theorem withoutMeasurements_without (c : Circuit) :
    withoutMeasurements (c.without ["measure"]).instructions = withoutMeasurements c.instructions := by
  rw [without, withoutMeasurements, withoutMeasurements, List.filter_filter]
  refine List.filter_congr fun i _ => ?_
  simp [bne, Bool.beq_eq_decide_eq]

theorem script_without_measure (policy : Policy) (c : Circuit) :
    (c.without ["measure"]).script policy = c.script policy := by
  rw [script_eq, script_eq, run, width, withoutMeasurements_without]
  rfl

/-! ### Barriers -/

theorem emitted_without (c : Circuit) : (c.without ["measure", "barrier"]).emitted = c.emitted := by
  rw [emitted, emitted, without, List.filter_filter]
  refine List.filter_congr fun i _ => ?_
  simp [Instruction.hasBlock, bne, Bool.beq_eq_decide_eq]

theorem width_without_le (c : Circuit) (names : List String) : (c.without names).width ≤ c.width := by
  refine rowWidth_le_iff.mpr ⟨one_le_rowWidth _, fun i hi q hq => ?_⟩
  obtain ⟨hi, hname⟩ := List.mem_filter.mp hi
  exact lt_rowWidth (List.mem_filter.mpr ⟨(mem_without.mp hi).1, hname⟩) hq

/-- Barriers that stay below the operands of the gates do not show in the width. -/
theorem width_without_barrier
    (h : ∀ i ∈ c.instructions, i.name = "barrier" → ∀ q ∈ i.qubits,
      ∃ j ∈ c.instructions, j.name ∉ ["measure", "barrier"] ∧ ∃ r ∈ j.qubits, q.index ≤ r.index) :
    (c.without ["measure", "barrier"]).width = c.width := by
  refine le_antisymm (width_without_le c _) (rowWidth_le_iff.mpr ⟨one_le_rowWidth _, fun i hi q hq => ?_⟩)
  -- a gate that is not left out reaches at least as far as the operand
  obtain ⟨j, hj, hname, r, hr, hle⟩ : ∃ j ∈ c.instructions, j.name ∉ ["measure", "barrier"] ∧
      ∃ r ∈ j.qubits, q.index ≤ r.index := by
    obtain ⟨hi, hmeasure⟩ := List.mem_filter.mp hi
    by_cases hbarrier : i.name = "barrier"
    · exact h i hi hbarrier q hq
    · exact ⟨i, hi, by simpa [hbarrier] using hmeasure, q, hq, UInt32.le_refl _⟩
  have hkept : j ∈ withoutMeasurements (c.without ["measure", "barrier"]).instructions := by
    refine List.mem_filter.mpr ⟨mem_without.mpr ⟨hj, hname⟩, ?_⟩
    simp only [List.mem_cons, not_or] at hname
    simpa using hname.1
  have hlt : r.index.toNat < (c.without ["measure", "barrier"]).width := lt_rowWidth hkept hr
  exact (UInt32.le_iff_toNat_le.mp hle).trans_lt hlt

theorem firstRejected_without {e : EncodeError} :
    FirstRejected policy (c.without ["measure", "barrier"]).instructions e ↔
      FirstRejected policy c.instructions e := by
  refine firstRejected_filter fun i hi => ?_
  by_contra hb
  have hname := Instruction.hasBlock_iff.mp (by simpa using hb)
  simp [hname] at hi

theorem exists_script_without {s : Script} (h : c.script policy = .ok s) :
    ∃ s', (c.without ["measure", "barrier"]).script policy = .ok s' :=
  exists_script_iff.mpr fun i hi => exists_script_iff.mp ⟨s, h⟩ i (mem_without.mp hi).1

theorem script_of_script_without {s : Script} (h : (c.without ["measure", "barrier"]).script policy = .ok s) :
    c.script policy = .ok ⟨s.numQubits, s.blocks.map (Block.widen c.width)⟩ := by
  obtain ⟨hn, hw⟩ := script_eq_ok_iff.mp h
  refine script_eq_ok_iff.mpr ⟨hn, ?_⟩
  rw [emitted_without] at hw
  exact forall₂_writes_widen hw (width_without_le c _)

/-- **Measurements and barriers do not show**: without the instructions named `measure` a circuit has the same text or
the same failure. Without those named `barrier` too it has the same failure, and its blocks are under the same headers,
in the same order, with the same rows up to identity cells behind them; there are none of these if no barrier reaches
beyond the operands of the gates. -/
theorem fileString_without (policy : Policy) (c : Circuit) :
    (c.without ["measure"]).fileString policy = c.fileString policy ∧
    (∀ e, (c.without ["measure", "barrier"]).fileString policy = .error e ↔ c.fileString policy = .error e) ∧
    (∀ text, c.fileString policy = .ok text →
      ∃ s s', c.script policy = .ok s ∧ s.text = text ∧
        (c.without ["measure", "barrier"]).script policy = .ok s' ∧
        (c.without ["measure", "barrier"]).fileString policy = .ok s'.text ∧
        s.numQubits = s'.numQubits ∧ (∀ b ∈ s.blocks, b.row.length = c.width) ∧
        (∀ b ∈ s'.blocks, b.row.length = (c.without ["measure", "barrier"]).width) ∧
        s.blocks = s'.blocks.map fun b =>
          ⟨b.header, b.row ++ List.replicate (c.width - (c.without ["measure", "barrier"]).width) 'I'⟩) ∧
    ((∀ i ∈ c.instructions, i.name = "barrier" → ∀ q ∈ i.qubits,
        ∃ j ∈ c.instructions, j.name ∉ ["measure", "barrier"] ∧ ∃ r ∈ j.qubits, q.index ≤ r.index) →
      (c.without ["measure", "barrier"]).fileString policy = c.fileString policy) := by
  have herror : ∀ e, (c.without ["measure", "barrier"]).fileString policy = .error e ↔
      c.fileString policy = .error e := by
    intro e
    rw [fileString_eq_error_iff, fileString_eq_error_iff, firstRejected_without]
  refine ⟨?_, herror, fun text htext => ?_, fun hbarrier => ?_⟩
  · rw [fileString, fileString, script_without_measure]
  · obtain ⟨s, hs, rfl⟩ := fileString_eq_ok_iff.mp htext
    obtain ⟨s', hs'⟩ := exists_script_without hs
    have hblocks : s.blocks = s'.blocks.map (Block.widen c.width) := by
      have h := script_of_script_without hs'
      rw [hs] at h
      rw [Except.ok.inj h]
    have hrows := length_row_of_script hs'
    refine ⟨s, s', hs, rfl, hs', fileString_eq_ok_iff.mpr ⟨s', hs', rfl⟩, ?_, length_row_of_script hs, hrows, ?_⟩
    · rw [(script_eq_ok_iff.mp hs).1, (script_eq_ok_iff.mp hs').1]
      rfl
    · rw [hblocks]
      refine List.map_congr_left fun b hb => ?_
      rw [Block.widen, hrows b hb]
      rfl
  · have hwidth := width_without_barrier hbarrier
    cases h' : (c.without ["measure", "barrier"]).script policy with
    | error e =>
      have he : (c.without ["measure", "barrier"]).fileString policy = .error e := by
        rw [fileString, h']
        rfl
      rw [he, (herror e).mp he]
    | ok s' =>
      have hs := script_of_script_without h'
      rw [← hwidth, map_widen_of_length (length_row_of_script h')] at hs
      rw [fileString, fileString, h', hs]

/-- The measurements on the last wire do not widen the rows and the barrier in front of them does. In the second circuit
the barrier stays below the operands of the gate. -/
theorem fileString_without_wide :
    let c : Circuit := { name := "wide", numQubits := 4, numClbits := 1, instructions := [
      StandardGate.instruction (.cx ⟨1⟩ ⟨0⟩), .barrier [⟨2⟩], .measure [⟨3⟩] [⟨0⟩],
      .ofGate { name := "measure" } [⟨3⟩], StandardGate.instruction (.ry 0.5 ⟨1⟩)] }
    let d : Circuit := { name := "narrow", numQubits := 3, instructions := [
      .barrier [⟨0⟩, ⟨2⟩], StandardGate.instruction (.x ⟨2⟩)] }
    let text := "# 4\nXCI,\n\x7bU 0.5 0 0\x7d\nIUI:"
    c.fileString .strict = .ok text ∧ c.width = 3 ∧ (c.without ["measure", "barrier"]).width = 2 ∧
      (∃ s s', c.script .strict = .ok s ∧ s.text = text ∧
        (c.without ["measure", "barrier"]).script .strict = .ok s' ∧
        (c.without ["measure", "barrier"]).fileString .strict = .ok s'.text ∧
        s.numQubits = s'.numQubits ∧ (∀ b ∈ s.blocks, b.row.length = c.width) ∧
        (∀ b ∈ s'.blocks, b.row.length = (c.without ["measure", "barrier"]).width) ∧
        s.blocks = s'.blocks.map fun b =>
          ⟨b.header, b.row ++ List.replicate (c.width - (c.without ["measure", "barrier"]).width) 'I'⟩) ∧
      (d.without ["measure", "barrier"]).fileString .strict = d.fileString .strict :=
  ⟨rfl, rfl, rfl, (fileString_without .strict _).2.2.1 _ rfl, (fileString_without .strict _).2.2.2 (by decide)⟩

end Circuit

end GateGrid
