import GateGrid.Proofs.Script.Encodable

/-!
# Programs on other wires

* `Instruction.rename`: the instruction on other wires.
* `CellShows.rename`: a cell of a renamed wire shows what the cell of the wire showed.
* `Block.Moved`: two blocks under one header, where the cells of wires have moved with their wires.
* `Circuit.fileString_rename`: a renamed program fails as before, or its blocks have moved.
-/

namespace GateGrid

/-- The instruction on the wires that `s` gives for its own. -/
def Instruction.rename (s : Qubit → Qubit) (i : Instruction) : Instruction :=
  { i with qubits := i.qubits.map s }

/-! ## Cells -/

section Cells

variable {s : Qubit → Qubit} {codes : List Char} {qubits : List Qubit} {j : Nat} {x : Char}

/-- Wires that are told apart before are told apart afterwards. -/
theorem CellShows.rename (hs : Function.Injective s) {q : Qubit} (h : CellShows codes qubits q.index.toNat x) :
    CellShows codes (qubits.map s) (s q).index.toNat x := by
  have hmoved : ∀ r : Qubit, (s r).index.toNat = (s q).index.toNat ↔ r.index.toNat = q.index.toNat := by
    intro r
    rw [Qubit.toNat_index_inj, Qubit.toNat_index_inj, hs.eq_iff]
  rcases h with ⟨k, r, hk, hr, hx, hlast⟩ | ⟨hnone, hx⟩
  · refine Or.inl ⟨k, s r, by rw [List.getElem?_map, hk]; rfl, (hmoved r).mpr hr, hx, fun k' r' hlt hk' => ?_⟩
    rw [List.getElem?_map, Option.map_eq_some_iff] at hk'
    obtain ⟨r', hk', rfl⟩ := hk'
    exact fun he => hlast k' r' hlt hk' ((hmoved r').mp he)
  · refine Or.inr ⟨fun r' hr' => ?_, hx⟩
    obtain ⟨r, hr, rfl⟩ := List.mem_map.mp hr'
    exact fun he => hnone r hr ((hmoved r).mp he)

theorem CellShows.eq_identity (h : CellShows codes qubits j x) (hj : ∀ q ∈ qubits, q.index.toNat ≠ j) : x = 'I' := by
  rcases h with ⟨k, q, hk, hq, -, -⟩ | ⟨-, rfl⟩
  · exact absurd hq (hj q (List.mem_of_getElem? hk))
  · rfl

end Cells

/-! ## Blocks -/

/-- The block `b'` is `b` on other wires: a cell of a wire that counts has moved with its wire, and any other cell is
the identity. -/
structure Block.Moved (s : Qubit → Qubit) (Counts : Qubit → Prop) (b b' : Block) : Prop where
  header : b'.header = b.header
  cell : ∀ q, Counts q → ∃ x, b.row[q.index.toNat]? = some x ∧ b'.row[(s q).index.toNat]? = some x
  other : ∀ j x, b'.row[j]? = some x → (∀ q, Counts q → (s q).index.toNat ≠ j) → x = 'I'

theorem Instruction.Writes.moved {policy : Policy} {width width' : Nat} {s : Qubit → Qubit} {Counts : Qubit → Prop}
    {i : Instruction} {b b' : Block} (hs : Function.Injective s) (hb : i.Writes policy width b)
    (hb' : (i.rename s).Writes policy width' b') (hi : ∀ q ∈ i.qubits, Counts q)
    (hlt : ∀ q, Counts q → q.index.toNat < width ∧ (s q).index.toNat < width') : b.Moved s Counts b' := by
  obtain ⟨g, hg, hrow, hheader⟩ := hb
  obtain ⟨g', hg', hrow', hheader'⟩ := hb'
  obtain rfl : g = g' := Option.some.inj (hg.symm.trans hg')
  have hr := Symbol.isRow_of_row hrow
  have hr' := Symbol.isRow_of_row hrow'
  refine ⟨Except.ok.inj (hheader'.symm.trans hheader), fun q hq => ?_, fun j x hx hother => ?_⟩
  · have hj : q.index.toNat < b.row.length := hr.length ▸ (hlt q hq).1
    have hj' : (s q).index.toNat < b'.row.length := hr'.length ▸ (hlt q hq).2
    refine ⟨b.row[q.index.toNat], List.getElem?_eq_getElem hj, ?_⟩
    rw [List.getElem?_eq_getElem hj']
    exact congrArg some ((hr'.cell _ hj').unique ((hr.cell _ hj).rename hs))
  · obtain ⟨hj, rfl⟩ := List.getElem?_eq_some_iff.mp hx
    refine (hr'.cell j hj).eq_identity fun r hr => ?_
    obtain ⟨q, hq, rfl⟩ := List.mem_map.mp hr
    exact hother q (hi q hq)

/-- What two lists have been made of the same items. -/
theorem forall₂_of_common {α β γ : Type} {R : α → β → Prop} {R' : α → γ → Prop} {T : β → γ → Prop} {l : List α}
    {m : List β} {n : List γ} (h : List.Forall₂ R l m) (h' : List.Forall₂ R' l n)
    (hT : ∀ a ∈ l, ∀ b c, R a b → R' a c → T b c) : List.Forall₂ T m n := by
  induction h generalizing n with
  | nil =>
    cases h'
    exact List.Forall₂.nil
  | cons hab _ ih =>
    cases h' with
    | cons hac hrest =>
      exact List.Forall₂.cons (hT _ List.mem_cons_self _ _ hab hac)
        (ih hrest fun a ha => hT a (List.mem_cons_of_mem _ ha))

/-! ## Circuits -/

section Names

variable {policy : Policy} {s : Qubit → Qubit} {i : Instruction} {instructions : List Instruction} {e : EncodeError}

/-- Nothing that is reported depends on which wires the operands are. -/
theorem Instruction.rejected_rename_iff : (i.rename s).Rejected policy e ↔ i.Rejected policy e := by
  have hnil : (i.rename s).qubits = [] ↔ i.qubits = [] := List.map_eq_nil_iff
  have hlen : (i.rename s).qubits.length = i.qubits.length := List.length_map s
  constructor
  · intro h
    cases h with
    | unknownGate hname => exact .unknownGate hname
    | qubitCountMismatch hg hne hcount =>
      rw [hlen] at hcount ⊢
      exact .qubitCountMismatch hg (fun h => hne (hnil.mpr h)) hcount
    | malformedParameters hg hcount hstrict hangles =>
      rw [hnil, hlen] at hcount
      exact .malformedParameters hg hcount hstrict hangles
  · intro h
    cases h with
    | unknownGate hname => exact .unknownGate hname
    | qubitCountMismatch hg hne hcount =>
      rw [← hlen] at hcount ⊢
      exact .qubitCountMismatch hg (fun h => hne (hnil.mp h)) hcount
    | malformedParameters hg hcount hstrict hangles =>
      rw [← hnil, ← hlen] at hcount
      exact .malformedParameters hg hcount hstrict hangles

theorem Instruction.passes_rename_iff : (i.rename s).Passes policy ↔ i.Passes policy := by
  simp only [Instruction.passes_iff, Instruction.rejected_rename_iff]
  rfl

theorem firstRejected_rename_iff :
    FirstRejected policy (instructions.map (Instruction.rename s)) e ↔ FirstRejected policy instructions e := by
  induction instructions with
  | nil => exact Iff.rfl
  | cons i rest ih =>
    rw [List.map_cons, firstRejected_cons_iff, firstRejected_cons_iff, ih, Instruction.rejected_rename_iff,
      Instruction.passes_rename_iff]
    rfl

end Names

namespace Circuit

variable {policy : Policy} {s : Qubit → Qubit} {c c' : Circuit}

theorem emitted_rename (h : c'.instructions = c.instructions.map (Instruction.rename s)) :
    c'.emitted = c.emitted.map (Instruction.rename s) := by
  rw [emitted, h, List.filter_map, emitted]
  rfl

theorem references_rename_iff (h : c'.instructions = c.instructions.map (Instruction.rename s)) {j : Nat} :
    c'.References j ↔ ∃ q : Qubit, c.References q.index.toNat ∧ (s q).index.toNat = j := by
  constructor
  · rintro ⟨i', hi', hname, r, hr, rfl⟩
    rw [h] at hi'
    obtain ⟨i, hi, rfl⟩ := List.mem_map.mp hi'
    obtain ⟨q, hq, rfl⟩ := List.mem_map.mp hr
    exact ⟨q, ⟨i, hi, hname, q, hq, rfl⟩, rfl⟩
  · rintro ⟨q, ⟨i, hi, hname, r, hr, hrq⟩, rfl⟩
    obtain rfl := Qubit.toNat_index_inj.mp hrq
    exact ⟨i.rename s, h ▸ List.mem_map_of_mem hi, hname, s r, List.mem_map_of_mem hr, rfl⟩

theorem lt_width_of_references {j : Nat} (h : c.References j) : j < c.width := by
  obtain ⟨i, hi, q, hq, rfl⟩ := references_iff.mp h
  exact lt_rowWidth hi hq

theorem moved_of_scripts {t t' : Script} (hs : Function.Injective s)
    (h : c'.instructions = c.instructions.map (Instruction.rename s)) (ht : c.script policy = .ok t)
    (ht' : c'.script policy = .ok t') :
    List.Forall₂ (Block.Moved s fun q => c.References q.index.toNat) t.blocks t'.blocks := by
  have hw := (script_eq_ok_iff.mp ht).2
  have hw' := (script_eq_ok_iff.mp ht').2
  rw [emitted_rename h, List.forall₂_map_left_iff] at hw'
  refine forall₂_of_common hw hw' fun i hi b b' hb hb' => hb.moved hs hb' (fun q hq => ?_) fun q hq => ?_
  · exact references_iff.mpr ⟨i, mem_withoutMeasurements hi, q, hq, rfl⟩
  · exact ⟨lt_width_of_references hq, lt_width_of_references ((references_rename_iff h).mpr ⟨q, hq, rfl⟩)⟩

/-- **Renaming wires**: a program on renamed wires fails as before or has as many blocks under the same headers. There a
cell of a wire that is named by an instruction other than a measurement has moved with its wire, every other cell is
the identity, and the width is one more than the highest of the renamed wires, one if there is none. -/
theorem fileString_rename (policy : Policy) (hs : Function.Injective s)
    (h : c'.instructions = c.instructions.map (Instruction.rename s)) :
    (∃ e, c.fileString policy = .error e ∧ c'.fileString policy = .error e) ∨
    ∃ t t', c.script policy = .ok t ∧ c.fileString policy = .ok t.text ∧
      c'.script policy = .ok t' ∧ c'.fileString policy = .ok t'.text ∧
      t.blocks.length = t'.blocks.length ∧ t.blocks.map Block.header = t'.blocks.map Block.header ∧
      List.Forall₂ (Block.Moved s fun q => c.References q.index.toNat) t.blocks t'.blocks ∧
      (∀ b ∈ t'.blocks, b.row.length = c'.width) ∧
      (IsGreatest {w | ∃ q : Qubit, c.References q.index.toNat ∧ w = (s q).index.toNat + 1} c'.width ∨
        (∀ q : Qubit, ¬ c.References q.index.toNat) ∧ c'.width = 1) := by
  have herror : ∀ e, c'.script policy = .error e ↔ c.script policy = .error e := by
    intro e
    rw [script_eq_error_iff, script_eq_error_iff, h, firstRejected_rename_iff]
  cases ht : c.script policy with
  | error e => exact Or.inl ⟨e, by rw [fileString, ht]; rfl, by rw [fileString, (herror e).mpr ht]; rfl⟩
  | ok t =>
    cases ht' : c'.script policy with
    | error e =>
      rw [(herror e).mp ht'] at ht
      cases ht
    | ok t' =>
      have hmoved := moved_of_scripts hs h ht ht'
      refine Or.inr ⟨t, t', rfl, by rw [fileString, ht]; rfl, rfl, by rw [fileString, ht']; rfl, hmoved.length_eq, ?_,
        hmoved, length_row_of_script ht', ?_⟩
      · refine List.forall₂_eq_eq_eq ▸ ?_
        rw [List.forall₂_map_left_iff, List.forall₂_map_right_iff]
        exact hmoved.imp fun _ _ hb => hb.header.symm
      · have hset : {w | ∃ j, c'.References j ∧ w = j + 1} =
            {w | ∃ q : Qubit, c.References q.index.toNat ∧ w = (s q).index.toNat + 1} := by
          ext w
          simp only [references_rename_iff h, Set.mem_ofPred_eq]
          constructor
          · rintro ⟨_, ⟨q, hq, rfl⟩, hw⟩
            exact ⟨q, hq, hw⟩
          · rintro ⟨q, hq, hw⟩
            exact ⟨_, ⟨q, hq, rfl⟩, hw⟩
        rcases c'.isWidth_width with hgreatest | ⟨hnone, hone⟩
        · exact Or.inl (hset ▸ hgreatest)
        · exact Or.inr ⟨fun q hq => hnone _ ((references_rename_iff h).mpr ⟨q, hq, rfl⟩), hone⟩

/-- Four wires in reverse; the measured wire does not count. -/
theorem fileString_rename_reverse :
    let s : Qubit → Qubit := fun q => ⟨3 - q.index⟩
    let c : Circuit := { name := "forward", numQubits := 4, numClbits := 1, instructions := [
      StandardGate.instruction (.cx ⟨0⟩ ⟨1⟩), .measure [⟨2⟩] [⟨0⟩], StandardGate.instruction (.ry 0.5 ⟨0⟩)] }
    let c' : Circuit := { name := "reverse", numQubits := 4, instructions := c.instructions.map (Instruction.rename s) }
    Function.Injective s ∧ c.fileString .strict = .ok "# 4\nCX,\n\x7bU 0.5 0 0\x7d\nUI:" ∧
      c'.fileString .strict = .ok "# 4\nIIXC,\n\x7bU 0.5 0 0\x7d\nIIIU:" ∧
      ((∃ e, c.fileString .strict = .error e ∧ c'.fileString .strict = .error e) ∨
      ∃ t t', c.script .strict = .ok t ∧ c.fileString .strict = .ok t.text ∧
        c'.script .strict = .ok t' ∧ c'.fileString .strict = .ok t'.text ∧
        t.blocks.length = t'.blocks.length ∧ t.blocks.map Block.header = t'.blocks.map Block.header ∧
        List.Forall₂ (Block.Moved s fun q => c.References q.index.toNat) t.blocks t'.blocks ∧
        (∀ b ∈ t'.blocks, b.row.length = c'.width) ∧
        (IsGreatest {w | ∃ q : Qubit, c.References q.index.toNat ∧ w = (s q).index.toNat + 1} c'.width ∨
          (∀ q : Qubit, ¬ c.References q.index.toNat) ∧ c'.width = 1)) := by
  have hs : Function.Injective fun q : Qubit => (⟨3 - q.index⟩ : Qubit) := by
    intro q r h
    exact congrArg Qubit.mk (UInt32.sub_right_inj 3 |>.mp (congrArg Qubit.index h))
  exact ⟨hs, rfl, rfl, fileString_rename .strict hs rfl⟩

end Circuit

end GateGrid
