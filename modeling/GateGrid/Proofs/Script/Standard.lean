import GateGrid.Proofs.Script.Width

/-!
# Scripts of the standard circuits

* `Symbol.row_neighbours`: the row of a gate on wires next to each other.
* `Circuit.chain`, `Circuit.IsChain`: the gates of a GHZ state, and the circuits that consist of them and a measurement.
  The Bell pair is the one over two wires.
* `Circuit.prepareChain`: the gates are appended one by one. Both of the standard circuits are made in this way, and all
  of the gates fit (`Circuit.exists_prepareChain`).
* `Circuit.IsChain.script_eq`: the rows of such a circuit are `Circuit.chainRows`, a staircase of controlled gates below
  a Hadamard gate, of the width of the register.
* `Circuit.ghz_fileString`: GHZ states exist in every size, and what their files hold.
-/

namespace GateGrid

/-! ## Gates on neighbouring wires -/

namespace Symbol

/-- Placed in order on neighbouring wires, operands leave their codes side by side. -/
theorem place_neighbours {g : Symbol} {qubits : List Qubit} {codes cells : List Char} {m : Nat}
    (hq : qubits.map (·.index.toNat) = List.range' cells.length codes.length) (hm : codes.length ≤ m) :
    g.place (qubits.zip codes) (cells ++ List.replicate m identityCode) =
      .ok (cells ++ codes ++ List.replicate (m - codes.length) identityCode) := by
  induction codes generalizing qubits cells m with
  | nil =>
    rw [List.zip_nil_right, place, List.append_nil]
    rfl
  | cons x codes ih =>
    obtain ⟨q, rest, rfl, hhead, hrest⟩ := List.map_eq_cons_iff.mp (hq.trans List.range'_succ)
    obtain ⟨m, rfl⟩ : ∃ k, m = k + 1 := ⟨m - 1, by simp only [List.length_cons] at hm; omega⟩
    -- the first identity cell is that of the first operand
    have hcell : (cells ++ List.replicate (m + 1) identityCode).set cells.length x =
        (cells ++ [x]) ++ List.replicate m identityCode := by
      rw [List.set_append_right _ _ le_rfl, Nat.sub_self, List.replicate_succ, List.set_cons_zero, List.append_assoc]
      rfl
    have hinside : cells.length < (cells ++ List.replicate (m + 1) identityCode).length := by
      simp
    have hlen : (cells ++ [x]).length = cells.length + 1 := List.length_append
    rw [List.zip_cons_cons, place, hhead, if_pos hinside, hcell,
      ih (by rw [hrest, hlen]) (by simpa using hm), List.append_assoc cells [x] codes, List.length_cons,
      Nat.add_sub_add_right]
    rfl

theorem row_neighbours {g : Symbol} {qubits : List Qubit} {first width : Nat}
    (hq : qubits.map (·.index.toNat) = List.range' first g.codes.length) (hwidth : first + g.codes.length ≤ width) :
    g.row qubits width = .ok (List.replicate first identityCode ++ g.codes ++
      List.replicate (width - first - g.codes.length) identityCode) := by
  have hlen : qubits.length = g.codes.length := by simpa using congrArg List.length hq
  have hsplit : List.replicate width identityCode =
      List.replicate first identityCode ++ List.replicate (width - first) identityCode := by
    rw [List.replicate_append_replicate, Nat.add_sub_cancel' (by omega)]
  rw [row_eq_place hlen, hsplit]
  exact place_neighbours (by rw [hq, List.length_replicate]) (by omega)

end Symbol

theorem StandardGate.hasBlock (g : StandardGate) : g.instruction.hasBlock = true := by
  cases g <;> rfl

namespace Circuit

variable {policy : Policy} {c : Circuit} {n : UInt32}

/-! ## The gates of a GHZ state -/

/-- A Hadamard gate, then a controlled gate from each wire to the next. -/
def chain (n : UInt32) : List StandardGate :=
  .h ⟨0⟩ :: (indices (n - 1)).map fun i => .cx ⟨i⟩ ⟨i + 1⟩

theorem toNat_pos_of_ne_zero (h : n ≠ 0) : 0 < n.toNat :=
  Nat.pos_of_ne_zero fun h0 => h (UInt32.toNat_inj.mp h0)

theorem toNat_pred (h : n ≠ 0) : (n - 1).toNat = n.toNat - 1 :=
  UInt32.toNat_sub_of_le n 1 (UInt32.le_iff_toNat_le.mpr (toNat_pos_of_ne_zero h))

/-- The target of a controlled gate is a wire too: the last one is no control. -/
theorem toNat_target (h : n ≠ 0) {i : UInt32} (hi : i ∈ indices (n - 1)) :
    (i + 1).toNat = i.toNat + 1 ∧ i.toNat + 1 < n.toNat := by
  have hlt : i.toNat < (n - 1).toNat := mem_indices.mp hi
  have hsize := n.toNat_lt
  rw [toNat_pred h] at hlt
  exact ⟨toNat_add_one (by simp only [UInt32.size]; omega), by omega⟩

theorem fits_of_mem_chain (h : n ≠ 0) : ∀ i ∈ (chain n).map (·.instruction), i.Fits n n := by
  intro i hi
  obtain ⟨g, hg, rfl⟩ := List.mem_map.mp hi
  rcases List.mem_cons.mp hg with rfl | hg
  · have hzero : (0 : UInt32) < n := toNat_pos_of_ne_zero h
    exact ⟨List.forall_mem_singleton.mpr hzero, List.nodup_singleton _, nofun, nofun⟩
  · obtain ⟨k, hk, rfl⟩ := List.mem_map.mp hg
    obtain ⟨hnext, hlast⟩ := toNat_target h hk
    have hcontrol : k < n := show k.toNat < n.toNat by omega
    have htarget : k + 1 < n := show (k + 1).toNat < n.toNat by omega
    have hne : (⟨k⟩ : Qubit) ≠ ⟨k + 1⟩ := fun he => by
      have hsame := congrArg (·.index.toNat) he
      simp only at hsame
      omega
    exact ⟨List.forall_mem_cons.mpr ⟨hcontrol, List.forall_mem_singleton.mpr htarget⟩,
      List.nodup_cons.mpr ⟨fun hmem => hne (List.mem_singleton.mp hmem), List.nodup_singleton _⟩, nofun, nofun⟩

/-- The last wire belongs to a gate: to the Hadamard gate if it is the only one, else as a target. -/
theorem exists_last_of_chain (n : UInt32) : ∃ g ∈ chain n, (⟨n - 1⟩ : Qubit) ∈ g.instruction.qubits := by
  by_cases hone : n - 1 = 0
  · rw [hone]
    exact ⟨.h ⟨0⟩, List.mem_cons_self, List.mem_singleton_self _⟩
  · have hlt : n - 1 - 1 < n - 1 := by
      have hpos := toNat_pos_of_ne_zero hone
      rw [UInt32.lt_iff_toNat_lt, toNat_pred hone]
      omega
    refine ⟨.cx ⟨n - 1 - 1⟩ ⟨n - 1 - 1 + 1⟩,
      List.mem_cons_of_mem _ (List.mem_map.mpr ⟨n - 1 - 1, mem_indices.mpr hlt, rfl⟩), ?_⟩
    rw [UInt32.sub_add_cancel]
    exact List.mem_cons_of_mem _ (List.mem_singleton_self _)

/-! ## Circuits of these gates -/

/-- The gates of a GHZ state over all qubits, and a measurement behind them. -/
structure IsChain (c : Circuit) : Prop where
  nonempty : c.numQubits ≠ 0
  gates : ∃ qubits clbits, c.instructions = (chain c.numQubits).map (·.instruction) ++ [.measure qubits clbits]

/-- The gates are appended one by one, each to the circuit that the one before has left, and all qubits are measured. -/
def prepareChain (name : String) (n : UInt32) : Except CircuitError Circuit :=
  (chain n).foldlM standard { name, numQubits := n, numClbits := n } >>= measureAll

theorem foldlM_standard (c : Circuit) (gates : List StandardGate) :
    gates.foldlM standard c = c.applyAll (gates.map (·.instruction)) := by
  rw [applyAll_eq_foldlM, List.foldlM_map]
  rfl

theorem ghz_eq_prepareChain (h : n ≠ 0) : ghz n = prepareChain s!"ghz_{n.toNat}" n := by
  rw [prepareChain, foldlM_standard]
  simp only [ghz, if_neg h]
  rfl

theorem bell_eq_prepareChain : bell = prepareChain "bell" 2 := by
  with_unfolding_all rfl

/-- No gate fails, nor does the measurement. -/
theorem exists_prepareChain (h : n ≠ 0) (name : String) :
    ∃ c, prepareChain name n = .ok c ∧ c.numQubits = n ∧ c.IsChain := by
  have happly : applyAll { name, numQubits := n, numClbits := n } ((chain n).map (·.instruction)) =
      .ok { name, numQubits := n, numClbits := n, instructions := (chain n).map (·.instruction) } :=
    applyAll_eq_ok_iff.mpr ⟨fits_of_mem_chain h, rfl⟩
  have hmeasured : prepareChain name n =
      measureAll { name, numQubits := n, numClbits := n, instructions := (chain n).map (·.instruction) } := by
    rw [prepareChain, foldlM_standard, happly]
    rfl
  rw [measureAll_eq] at hmeasured
  exact ⟨_, hmeasured, rfl, h, _, _, rfl⟩

theorem exists_ghz (h : n ≠ 0) : ∃ c, ghz n = .ok c ∧ c.numQubits = n ∧ c.IsChain := by
  rw [ghz_eq_prepareChain h]
  exact exists_prepareChain h _

theorem exists_bell : ∃ c, bell = .ok c ∧ c.numQubits = 2 ∧ c.IsChain := by
  rw [bell_eq_prepareChain]
  exact exists_prepareChain (by decide) _

theorem IsChain.emitted (h : c.IsChain) : c.emitted = (chain c.numQubits).map (·.instruction) := by
  obtain ⟨qubits, clbits, hinstructions⟩ := h.gates
  have hgates : ((chain c.numQubits).map (·.instruction)).filter Instruction.hasBlock =
      (chain c.numQubits).map (·.instruction) := by
    refine List.filter_eq_self.mpr fun i hi => ?_
    obtain ⟨g, -, rfl⟩ := List.mem_map.mp hi
    exact g.hasBlock
  rw [Circuit.emitted, hinstructions, List.filter_append, hgates]
  exact List.append_nil _

/-- The rows span the register: the gates reach the last wire and, in a valid circuit, no further. -/
theorem IsChain.width (h : c.IsChain) (hvalid : c.Valid) : c.width = c.numQubits.toNat := by
  have hpos := toNat_pos_of_ne_zero h.nonempty
  have hle := hvalid.width_le
  obtain ⟨g, hg, hlast⟩ := exists_last_of_chain c.numQubits
  have hmem : g.instruction ∈ c.emitted := by
    rw [h.emitted]
    exact List.mem_map_of_mem hg
  have hlt : (c.numQubits - 1).toNat < c.width := lt_rowWidth (mem_withoutMeasurements hmem) hlast
  rw [toNat_pred h.nonempty] at hlt
  omega

/-! ## Their rows -/

/-- The rows of the gates of a GHZ state. -/
def chainRows (n : Nat) : List (List Char) :=
  ('H' :: List.replicate (n - 1) 'I') ::
    (List.range (n - 1)).map fun i => List.replicate i 'I' ++ ['C', 'X'] ++ List.replicate (n - 2 - i) 'I'

theorem length_chainRows {n : Nat} (h : 0 < n) : (chainRows n).length = n := by
  rw [chainRows, List.length_cons, List.length_map, List.length_range, Nat.sub_add_cancel h]

theorem writes_h {width : Nat} (h : 0 < width) :
    (StandardGate.h ⟨0⟩).instruction.Writes policy width ⟨none, 'H' :: List.replicate (width - 1) 'I'⟩ := by
  have hoperands : [(⟨0⟩ : Qubit)].map (·.index.toNat) = List.range' 0 Symbol.h.codes.length := rfl
  have hroom : 0 + Symbol.h.codes.length ≤ width := show 0 + 1 ≤ width by omega
  exact ⟨.h, rfl, Symbol.row_neighbours hoperands hroom, rfl⟩

theorem writes_cx {i : UInt32} {width : Nat} (hnext : (i + 1).toNat = i.toNat + 1) (h : i.toNat + 1 < width) :
    (StandardGate.cx ⟨i⟩ ⟨i + 1⟩).instruction.Writes policy width
      ⟨none, List.replicate i.toNat 'I' ++ ['C', 'X'] ++ List.replicate (width - 2 - i.toNat) 'I'⟩ := by
  have hoperands : [(⟨i⟩ : Qubit), ⟨i + 1⟩].map (·.index.toNat) = List.range' i.toNat Symbol.cx.codes.length :=
    congrArg (fun k => [i.toNat, k]) hnext
  have hroom : i.toNat + Symbol.cx.codes.length ≤ width := h
  rw [Nat.sub_right_comm]
  exact ⟨.cx, rfl, Symbol.row_neighbours hoperands hroom, rfl⟩

theorem forall₂_writes_chain (h : n ≠ 0) :
    List.Forall₂ (Instruction.Writes policy n.toNat) ((chain n).map (·.instruction))
      ((chainRows n.toNat).map (Block.mk none)) := by
  rw [List.forall₂_map_left_iff, List.forall₂_map_right_iff]
  refine List.Forall₂.cons (writes_h (toNat_pos_of_ne_zero h)) ?_
  rw [← toNat_pred h, ← map_toNat_indices, List.map_map, List.forall₂_map_left_iff, List.forall₂_map_right_iff,
    List.forall₂_same]
  intro i hi
  obtain ⟨hnext, hlast⟩ := toNat_target h hi
  exact writes_cx hnext hlast

/-- The script of these gates is known from the size of the register alone. -/
theorem IsChain.script_eq (h : c.IsChain) (hvalid : c.Valid) :
    c.script policy = .ok ⟨c.numQubits.toNat, (chainRows c.numQubits.toNat).map (Block.mk none)⟩ := by
  refine script_eq_ok_iff.mpr ⟨rfl, ?_⟩
  rw [h.width hvalid, h.emitted]
  exact forall₂_writes_chain h.nonempty

example : (chainRows 4).map String.ofList = ["HIII", "CXII", "ICXI", "IICX"] := by decide

theorem IsChain.fileString_eq (h : c.IsChain) (hvalid : c.Valid) :
    c.fileString policy = .ok ("# " ++ toString c.numQubits.toNat ++ "\n" ++
      ",\n".intercalate ((chainRows c.numQubits.toNat).map String.ofList) ++ ":") := by
  refine fileString_eq_ok_iff.mpr ⟨_, h.script_eq hvalid, ?_⟩
  rw [Script.text_eq, List.map_map]
  rfl

theorem IsChain.length_compactString (h : c.IsChain) (hvalid : c.Valid) :
    ∃ compact, c.compactString policy = .ok compact ∧ compact.length = c.numQubits.toNat * c.numQubits.toNat := by
  have hs : c.script policy = .ok _ := h.script_eq hvalid
  refine ⟨_, compactString_of_script hs, ?_⟩
  rw [String.length_ofList, length_flatMap_row (length_row_of_script hs), h.width hvalid, List.length_map,
    length_chainRows (toNat_pos_of_ne_zero h.nonempty)]

/-- **The files of GHZ states**: there is one over any number of wires, and under either policy its text is the size of
the register and the rows of the chain, in a square. Over two wires it is written as the Bell pair is. Without wires
there are no rows. -/
theorem ghz_fileString (policy : Policy) :
    (∀ n : UInt32, ∃ c, ghz n = .ok c ∧
      c.fileString policy = .ok (if n = 0 then "# 0\n:" else
        "# " ++ toString n.toNat ++ "\n" ++ ",\n".intercalate ((chainRows n.toNat).map String.ofList) ++ ":") ∧
      ∃ compact, c.compactString policy = .ok compact ∧ compact.length = n.toNat * n.toNat) ∧
    ∃ b c, bell = .ok b ∧ ghz 2 = .ok c ∧ b.fileString policy = c.fileString policy ∧
      b.compactString policy = c.compactString policy := by
  refine ⟨fun n => ?_, ?_⟩
  · by_cases hzero : n = 0
    · subst hzero
      have hempty : ghz 0 = .ok { name := "ghz_0" } := rfl
      have hs : script policy { name := "ghz_0" } = .ok ⟨0, []⟩ := rfl
      have htext : fileString policy { name := "ghz_0" } = .ok "# 0\n:" :=
        fileString_eq_ok_iff.mpr ⟨_, hs, by decide⟩
      exact ⟨_, hempty, htext, _, compactString_of_script hs, rfl⟩
    · obtain ⟨c, hc, rfl, hchain⟩ := exists_ghz hzero
      have hvalid := (Reachable.ghz _ hc).valid
      rw [if_neg hzero]
      exact ⟨c, hc, hchain.fileString_eq hvalid, hchain.length_compactString hvalid⟩
  · obtain ⟨b, hb, hbsize, hbchain⟩ := exists_bell
    obtain ⟨c, hc, hcsize, hcchain⟩ := exists_ghz (n := 2) (by decide)
    have htext : b.fileString policy = c.fileString policy := by
      rw [hbchain.fileString_eq (Reachable.bell hb).valid, hcchain.fileString_eq (Reachable.ghz _ hc).valid, hbsize,
        hcsize]
    exact ⟨b, c, hb, hc, htext, by rw [compactString, compactString, htext]⟩

end Circuit

end GateGrid
