import GateGrid.Proofs.Script.Encodable

/-!
# Programs one behind the other

* `Block.widen`: the block with identity cells behind its row, up to a width.
* `Instruction.Writes.widen`: what an instruction writes in a wider script.
* `rowWidth_append`, `firstRejected_append_iff`: the width and the failure of two programs one behind the other.
* `Circuit.fileString_append`: the script of such a program is made of the blocks of its parts, widened.
-/

namespace GateGrid

/-! ## Wider rows -/

/-- The block with identity cells behind its row, up to a width. -/
def Block.widen (width : Nat) (b : Block) : Block :=
  { b with row := b.row ++ List.replicate (width - b.row.length) identityCode }

namespace Symbol

variable {g : Symbol} {row row' : List Char}

/-- Cells behind a row stay as they are while operands are placed in it. -/
theorem place_append {pairs : List (Qubit × Char)} (h : g.place pairs row = .ok row') (cells : List Char) :
    g.place pairs (row ++ cells) = .ok (row' ++ cells) := by
  induction pairs generalizing row with
  | nil => rw [place, Except.ok.inj h]
  | cons p rest ih =>
    obtain ⟨q, code⟩ := p
    rw [place] at h
    by_cases hq : q.index.toNat < row.length
    · have hlonger : q.index.toNat < (row ++ cells).length := by
        rw [List.length_append]
        omega
      rw [if_pos hq] at h
      rw [place, if_pos hlonger, List.set_append_left _ _ hq, ih h]
    · rw [if_neg hq] at h
      cases h

theorem row_widen {qubits : List Qubit} {width width' : Nat} (hle : width ≤ width')
    (h : g.row qubits width = .ok row) :
    g.row qubits width' = .ok (row ++ List.replicate (width' - width) identityCode) := by
  have hsplit : List.replicate width' identityCode =
      List.replicate width identityCode ++ List.replicate (width' - width) identityCode := by
    rw [List.replicate_append_replicate, Nat.add_sub_cancel' hle]
  simp only [Symbol.row] at h ⊢
  by_cases hnil : qubits.isEmpty = true
  · rw [if_pos hnil] at h ⊢
    rw [hsplit, Except.ok.inj h]
  · rw [if_neg hnil] at h ⊢
    by_cases hlen : qubits.length ≠ g.numQubits
    · rw [if_pos hlen] at h
      cases h
    · rw [if_neg hlen] at h ⊢
      rw [hsplit, place_append h]

end Symbol

/-- In a wider script an instruction has the same header, and the same row with identity cells behind it. -/
theorem Instruction.Writes.widen {policy : Policy} {width width' : Nat} {i : Instruction} {b : Block}
    (h : i.Writes policy width b) (hle : width ≤ width') : i.Writes policy width' (b.widen width') := by
  obtain ⟨g, hg, hrow, hheader⟩ := h
  have hlen : b.row.length = width := (Symbol.isRow_of_row hrow).length
  refine ⟨g, hg, ?_, hheader⟩
  rw [Block.widen, hlen]
  exact Symbol.row_widen hle hrow

theorem forall₂_writes_widen {policy : Policy} {width width' : Nat} {instructions : List Instruction}
    {blocks : List Block} (h : List.Forall₂ (Instruction.Writes policy width) instructions blocks)
    (hle : width ≤ width') :
    List.Forall₂ (Instruction.Writes policy width') instructions (blocks.map (Block.widen width')) := by
  rw [List.forall₂_map_right_iff]
  exact h.imp fun _ _ hw => hw.widen hle

/-! ## Two programs -/

theorem rowWidth_append (instructions more : List Instruction) :
    rowWidth (instructions ++ more) = max (rowWidth instructions) (rowWidth more) := by
  -- the loop over the second program starts from the width of the first, which is not below one
  have hone : max (rowWidth instructions) 1 = rowWidth instructions := max_eq_left (one_le_rowWidth _)
  calc rowWidth (instructions ++ more)
      = ((more.flatMap (·.qubits)).map fun q => q.index.toNat + 1).foldl max (rowWidth instructions) := by
        rw [rowWidth, List.flatMap_append, List.map_append, List.foldl_append, rowWidth]
    _ = ((more.flatMap (·.qubits)).map fun q => q.index.toNat + 1).foldl max (max (rowWidth instructions) 1) := by
        rw [hone]
    _ = max (rowWidth instructions) (rowWidth more) := List.foldl_assoc

theorem withoutMeasurements_append (instructions more : List Instruction) :
    withoutMeasurements (instructions ++ more) = withoutMeasurements instructions ++ withoutMeasurements more :=
  List.filter_append ..

theorem firstRejected_append_iff {policy : Policy} {instructions more : List Instruction} {e : EncodeError} :
    FirstRejected policy (instructions ++ more) e ↔ FirstRejected policy instructions e ∨
      (∀ i ∈ instructions, i.Passes policy) ∧ FirstRejected policy more e := by
  induction instructions with
  | nil => simp [not_firstRejected_nil]
  | cons i rest ih =>
    rw [List.cons_append, firstRejected_cons_iff, firstRejected_cons_iff, ih, List.forall_mem_cons]
    tauto

namespace Circuit

variable {policy : Policy} {a b c : Circuit}

theorem width_append (h : c.instructions = a.instructions ++ b.instructions) : c.width = max a.width b.width := by
  rw [width, h, withoutMeasurements_append, rowWidth_append, width, width]

theorem emitted_append (h : c.instructions = a.instructions ++ b.instructions) : c.emitted = a.emitted ++ b.emitted := by
  rw [emitted, h, List.filter_append, emitted, emitted]

theorem script_append {s t : Script} (hn : a.numQubits = c.numQubits)
    (h : c.instructions = a.instructions ++ b.instructions) (ha : a.script policy = .ok s)
    (hb : b.script policy = .ok t) :
    c.script policy = .ok ⟨s.numQubits, (s.blocks ++ t.blocks).map (Block.widen c.width)⟩ := by
  obtain ⟨hs, hwa⟩ := script_eq_ok_iff.mp ha
  obtain ⟨-, hwb⟩ := script_eq_ok_iff.mp hb
  have hwidth := width_append h
  have hlea : a.width ≤ c.width := hwidth ▸ le_max_left _ _
  have hleb : b.width ≤ c.width := hwidth ▸ le_max_right _ _
  refine script_eq_ok_iff.mpr ⟨hn ▸ hs, ?_⟩
  rw [emitted_append h, List.map_append]
  exact List.rel_append (forall₂_writes_widen hwa hlea) (forall₂_writes_widen hwb hleb)

/-- **Programs one behind the other**: for circuits over the same qubits, where `c` holds the instructions of `a` and
then those of `b`, a failure of `a` is a failure of `c`; if `a` has a text then a failure of `b` is one of `c`; and if
both have a text, then `c` has the larger of the two widths, and its text is that of the blocks of `a` and then those of
`b`, each under the same header and with identity cells behind its row up to that width. -/
theorem fileString_append (policy : Policy) (ha : a.numQubits = c.numQubits) (hb : b.numQubits = c.numQubits)
    (h : c.instructions = a.instructions ++ b.instructions) :
    (∀ e, a.fileString policy = .error e → c.fileString policy = .error e) ∧
    (∀ text e, a.fileString policy = .ok text → b.fileString policy = .error e →
      c.fileString policy = .error e) ∧
    ∀ text text', a.fileString policy = .ok text → b.fileString policy = .ok text' →
      c.width = max a.width b.width ∧
      ∃ s s' s'', a.script policy = .ok s ∧ s.text = text ∧ b.script policy = .ok s' ∧ s'.text = text' ∧
        c.script policy = .ok s'' ∧ c.fileString policy = .ok s''.text ∧
        s''.numQubits = s.numQubits ∧ s''.numQubits = s'.numQubits ∧
        s''.blocks = (s.blocks ++ s'.blocks).map (Block.widen (max a.width b.width)) := by
  refine ⟨fun e he => ?_, fun text e htext he => ?_, fun text text' htext htext' => ⟨width_append h, ?_⟩⟩
  · rw [fileString_eq_error_iff] at he ⊢
    rw [h]
    exact firstRejected_append_iff.mpr (Or.inl he)
  · have hpass := exists_fileString_iff.mp ⟨text, htext⟩
    rw [fileString_eq_error_iff] at he ⊢
    rw [h]
    exact firstRejected_append_iff.mpr (Or.inr ⟨hpass, he⟩)
  · obtain ⟨s, hs, rfl⟩ := fileString_eq_ok_iff.mp htext
    obtain ⟨s', hs', rfl⟩ := fileString_eq_ok_iff.mp htext'
    have hc := script_append ha h hs hs'
    have hnum : s.numQubits = s'.numQubits := by
      rw [(script_eq_ok_iff.mp hs).1, (script_eq_ok_iff.mp hs').1, ha, hb]
    rw [width_append h] at hc
    exact ⟨s, s', _, hs, rfl, hs', rfl, hc, fileString_eq_ok_iff.mpr ⟨_, hc, rfl⟩, rfl, hnum, rfl⟩

/-- The second program has no more than a barrier and an angle on the first qubit, and yet it widens the rows of the
first; the measured qubit does not. -/
theorem fileString_append_barrier :
    let a : Circuit := { name := "a", numQubits := 5, numClbits := 1, instructions := [
      StandardGate.instruction (.cx ⟨1⟩ ⟨0⟩), .measure [⟨4⟩] [⟨0⟩]] }
    let b : Circuit := { name := "b", numQubits := 5, instructions := [
      .barrier [⟨2⟩], StandardGate.instruction (.ry 0.5 ⟨0⟩)] }
    let c : Circuit := { name := "c", numQubits := 5, instructions := a.instructions ++ b.instructions }
    let text := "# 5\nXC:"
    let text' := "# 5\n\x7bU 0.5 0 0\x7d\nUII:"
    a.fileString .strict = .ok text ∧ b.fileString .strict = .ok text' ∧
      c.fileString .strict = .ok "# 5\nXCI,\n\x7bU 0.5 0 0\x7d\nUII:" ∧ c.width = max a.width b.width ∧
      ∃ s s' s'', a.script .strict = .ok s ∧ s.text = text ∧ b.script .strict = .ok s' ∧ s'.text = text' ∧
        c.script .strict = .ok s'' ∧ c.fileString .strict = .ok s''.text ∧
        s''.numQubits = s.numQubits ∧ s''.numQubits = s'.numQubits ∧
        s''.blocks = (s.blocks ++ s'.blocks).map (Block.widen (max a.width b.width)) :=
  ⟨rfl, rfl, rfl, (fileString_append .strict (by rfl) (by rfl) (by rfl)).2.2 _ _ (by rfl) (by rfl)⟩

end Circuit

end GateGrid
