import GateGrid.Proofs.Script.Compact

/-!
# Rows and the register

The rows of a file get their width from the operands, the first line has the size of the register, and nothing in the
text ties the two. That the rows stay inside the register rests on what every call keeps of a circuit.

* `textRows`: the rows in a text, read off its lines.
* `Circuit.Valid.width_le`, `Circuit.width_eq_one_or_references`: the width between the operands and the register.
* `Circuit.textRows_width`: the rows of a reachable circuit have one width, as small as its operands allow, and nothing
  but identity codes outside of the register.
-/

namespace GateGrid

/-- The rows in the text of a file: its lines behind the first, without headers and marks. -/
def textRows (text : String) : List (List Char) :=
  rowLines ((lines text.toList).drop 1)

/-- A cell with another code than that of the identity belongs to an operand. -/
theorem IsRow.exists_operand {codes : List Char} {qubits : List Qubit} {width : Nat} {row : List Char}
    (h : IsRow codes qubits width row) {j : Nat} {x : Char} (hget : row[j]? = some x) (hx : x ≠ 'I') :
    ∃ q ∈ qubits, q.index.toNat = j := by
  obtain ⟨hj, rfl⟩ := List.getElem?_eq_some_iff.mp hget
  rcases h.cell j hj with ⟨k, q, hk, hq, -, -⟩ | ⟨-, hid⟩
  · exact ⟨q, List.mem_of_getElem? hk, hq⟩
  · exact absurd hid hx

namespace Circuit

variable {policy : Policy} {c : Circuit} {s : Script}

/-- Operands are wires of the register, so one more than the highest of them is not above its size. -/
theorem Valid.width_le (h : c.Valid) : c.width ≤ max 1 c.numQubits.toNat := by
  refine rowWidth_le_iff.mpr ⟨le_max_left _ _, fun i hi q hq => ?_⟩
  have hlt : q.index.toNat < c.numQubits.toNat := (h i (List.mem_filter.mp hi).1).qubits_lt q hq
  exact hlt.trans_le (le_max_right _ _)

theorem width_eq_one_or_references (c : Circuit) : c.width = 1 ∨ c.References (c.width - 1) := by
  rcases (rowWidth_isGreatest (withoutMeasurements c.instructions)).1 with h | ⟨i, hi, q, hq, h⟩
  · exact Or.inl h
  · have hlast : q.index.toNat = c.width - 1 := by
      have hwidth : c.width = q.index.toNat + 1 := h
      omega
    exact Or.inr (references_iff.mpr ⟨i, hi, q, hq, hlast⟩)

theorem textRows_of_script (h : c.script policy = .ok s) : textRows s.text = s.blocks.map Block.row :=
  Script.rowLines_text (plain_of_script h)

/-- Where a row shows a gate there is a wire of the register. -/
theorem Valid.lt_numQubits_of_row (h : c.Valid) (hs : c.script policy = .ok s) {b : Block} (hb : b ∈ s.blocks)
    {j : Nat} {x : Char} (hget : b.row[j]? = some x) (hx : x ≠ 'I') : j < c.numQubits.toNat := by
  obtain ⟨i, hi, g, -, hrow, -⟩ := exists_writes_of_mem hs hb
  obtain ⟨q, hq, rfl⟩ := (Symbol.isRow_of_row hrow).exists_operand hget hx
  exact (h i (List.mem_filter.mp hi).1).qubits_lt q hq

/-- **The width of a file**: the text of a reachable circuit has a row for each instruction with a block. All rows have
the same width, at least one and not above the size of the register, unless that is zero; and beyond the register they
show identity codes only. No smaller width would do: it is one, or the last wire inside it is an operand of an
instruction that is no measurement. -/
theorem textRows_width (h : c.Reachable) {text : String} (htext : c.fileString policy = .ok text) :
    (textRows text).length = c.emitted.length ∧
      (∀ row ∈ textRows text, row.length = c.width ∧
        ∀ j x, row[j]? = some x → x ≠ 'I' → j < c.numQubits.toNat) ∧
      1 ≤ c.width ∧ c.width ≤ max 1 c.numQubits.toNat ∧ (c.width = 1 ∨ c.References (c.width - 1)) := by
  obtain ⟨s, hs, rfl⟩ := fileString_eq_ok_iff.mp htext
  have hvalid := h.valid
  have hcount : c.emitted.length = s.blocks.length := (writes_of_script hs).2.length_eq
  rw [textRows_of_script hs]
  refine ⟨by rw [List.length_map, hcount], fun row hrow => ?_, one_le_rowWidth _, hvalid.width_le,
    c.width_eq_one_or_references⟩
  obtain ⟨b, hb, rfl⟩ := List.mem_map.mp hrow
  exact ⟨length_row_of_script hs b hb, fun j x hget hx => hvalid.lt_numQubits_of_row hs hb hget hx⟩

/-- The barrier reaches further than the gates and widens their rows, the measurement does not. -/
theorem textRows_width_barrier :
    let c := (((({ name := "sparse", numQubits := 6, numClbits := 1 } : Circuit).after
      (.standard (.cx ⟨2⟩ ⟨0⟩))).after (.barrier [⟨3⟩])).after (.measure ⟨5⟩ ⟨0⟩)).after (.standard (.ry 0.5 ⟨1⟩))
    let text := "# 6\nXICI,\n\x7bU 0.5 0 0\x7d\nIUII:"
    c.fileString .strict = .ok text ∧ textRows text = ["XICI".toList, "IUII".toList] ∧
      (textRows text).length = c.emitted.length ∧
      (∀ row ∈ textRows text, row.length = c.width ∧
        ∀ j x, row[j]? = some x → x ≠ 'I' → j < c.numQubits.toNat) ∧
      1 ≤ c.width ∧ c.width ≤ max 1 c.numQubits.toNat ∧ (c.width = 1 ∨ c.References (c.width - 1)) := by
  intro c text
  have hc : c.Reachable :=
    .call _ (.call _ (.call _ (.call _ (.sized "sparse" 6 1) trivial) trivial) trivial) trivial
  have hcircuit : c = { name := "sparse", numQubits := 6, numClbits := 1, instructions :=
      [StandardGate.instruction (.cx ⟨2⟩ ⟨0⟩), .barrier [⟨3⟩], .measure [⟨5⟩] [⟨0⟩],
        StandardGate.instruction (.ry 0.5 ⟨1⟩)] } := by
    with_unfolding_all rfl
  have htext : c.fileString .strict = .ok text := by
    rw [hcircuit]
    rfl
  have hrows : textRows "# 6\nXICI,\n\x7bU 0.5 0 0\x7d\nIUII:" = ["XICI".toList, "IUII".toList] := by
    decide +kernel
  exact ⟨htext, hrows, textRows_width hc htext⟩

end Circuit

end GateGrid
