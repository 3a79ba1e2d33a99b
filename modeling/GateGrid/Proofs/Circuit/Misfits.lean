import Mathlib.Data.List.Induction
import GateGrid.Proofs.Circuit.Fits

/-!
# Operands that do not fit the registers

* `FirstFault n before q`: behind the qubits `before`, with which nothing is wrong, `q` is not declared or repeated.
* `Instruction.Names i gate`: `gate` is the name of the gate, or nothing if the instruction is none.
* `Instruction.Misfit n m i e`: `e` reports what is wrong first: a qubit in the order of the operands, then a classical
  bit, then the counts.
* `Circuit.apply_outcome`: what becomes of an instruction that is appended.
-/

namespace GateGrid

/-! ## What is wrong first -/

/-- The qubits `before` are declared and distinct; `q` behind them is not declared, or it is one of them. -/
structure FirstFault (n : UInt32) (before : List Qubit) (q : Qubit) : Prop where
  declared : ∀ r ∈ before, r.index < n
  distinct : before.Nodup
  fault : n ≤ q.index ∨ q ∈ before

namespace Instruction

/-- The name that goes into an error is that of the gate. Measurements and barriers have none to give. -/
def Names (i : Instruction) (gate : Option String) : Prop :=
  ∀ name, gate = some name ↔ ∃ g, i.operation = .gate g ∧ g.name = name

/-- What is reported of an instruction that does not fit registers of `n` qubits and `m` classical bits. -/
inductive Misfit (n m : UInt32) (i : Instruction) : CircuitError → Prop where
  | qubitNotFound {before after : List Qubit} {q : Qubit} {gate : Option String}
      (split : i.qubits = before ++ q :: after) (first : FirstFault n before q) (undeclared : n ≤ q.index)
      (names : i.Names gate) : Misfit n m i (.qubitNotFound q gate)
  | duplicateQubit {before after : List Qubit} {q : Qubit} {gate : Option String}
      (split : i.qubits = before ++ q :: after) (first : FirstFault n before q) (declared : q.index < n)
      (names : i.Names gate) : Misfit n m i (.duplicateQubit q gate)
  | clbitNotFound {before after : List Clbit} {b : Clbit} (qubits : ∀ q ∈ i.qubits, q.index < n)
      (distinct : i.qubits.Nodup) (split : i.clbits = before ++ b :: after)
      (declared : ∀ b' ∈ before, b'.index < m) (undeclared : m ≤ b.index) : Misfit n m i (.clbitNotFound b)
  | clbitCountMismatch (qubits : ∀ q ∈ i.qubits, q.index < n) (distinct : i.qubits.Nodup)
      (clbits : ∀ b ∈ i.clbits, b.index < m) (measure : i.isMeasure = true)
      (counts : i.qubits.length ≠ i.clbits.length) :
      Misfit n m i (.clbitCountMismatch i.qubits.length i.clbits.length)

theorem names_iff {i : Instruction} {gate : Option String} : i.Names gate ↔ gate = i.gate?.map Gate.name := by
  have hname : ∀ name, i.gate?.map Gate.name = some name ↔ ∃ g, i.operation = .gate g ∧ g.name = name := by
    intro name
    unfold gate?
    cases i.operation <;> simp
  constructor
  · intro h
    ext name
    rw [h name, hname name]
  · rintro rfl
    exact hname

/-- Qubits are all in order, or there is a first with which something is wrong. -/
theorem qubits_or_firstFault (n : UInt32) (qubits : List Qubit) :
    ((∀ q ∈ qubits, q.index < n) ∧ qubits.Nodup) ∨
      ∃ before q after, qubits = before ++ q :: after ∧ FirstFault n before q := by
  induction qubits using List.reverseRecOn with
  | nil => exact Or.inl ⟨by simp, List.nodup_nil⟩
  | append_singleton qubits q ih =>
    rcases ih with ⟨hlt, hnodup⟩ | ⟨before, r, after, rfl, hfault⟩
    · by_cases hq : q.index < n ∧ q ∉ qubits
      · have hlonger : (qubits ++ [q]).Nodup := by
          rw [← List.concat_eq_append]
          exact hnodup.concat hq.2
        refine Or.inl ⟨fun r hr => ?_, hlonger⟩
        rcases List.mem_append.mp hr with hr | hr
        · exact hlt r hr
        · rw [List.mem_singleton.mp hr]
          exact hq.1
      · rw [not_and_or, not_not] at hq
        exact Or.inr ⟨qubits, q, [], rfl, hlt, hnodup, hq.imp UInt32.not_lt.mp id⟩
    · exact Or.inr ⟨before, r, after ++ [q], by simp, hfault⟩

theorem clbits_or_first (m : UInt32) (clbits : List Clbit) :
    (∀ b ∈ clbits, b.index < m) ∨
      ∃ before b after, clbits = before ++ b :: after ∧ (∀ b' ∈ before, b'.index < m) ∧ m ≤ b.index := by
  cases hfind : clbits.find? (fun b => m ≤ b.index) with
  | none =>
    refine Or.inl fun b hb => ?_
    simpa using List.find?_eq_none.mp hfind b hb
  | some b =>
    obtain ⟨hout, before, after, hsplit, hbefore⟩ := List.find?_eq_some_iff_append.mp hfind
    exact Or.inr ⟨before, b, after, hsplit, by simpa using hbefore, by simpa using hout⟩

theorem fits_or_misfit (n m : UInt32) (i : Instruction) : i.Fits n m ∨ ∃ e, i.Misfit n m e := by
  have hnames : i.Names (i.gate?.map Gate.name) := names_iff.mpr rfl
  rcases qubits_or_firstFault n i.qubits with ⟨hqubits, hdistinct⟩ | ⟨before, q, after, hsplit, hfault⟩
  · rcases clbits_or_first m i.clbits with hclbits | ⟨before, b, after, hsplit, hdeclared, hout⟩
    · by_cases hcounts : i.isMeasure = true → i.clbits.length = i.qubits.length
      · exact Or.inl ⟨hqubits, hdistinct, hclbits, hcounts⟩
      · rw [Classical.not_imp] at hcounts
        exact Or.inr ⟨_, .clbitCountMismatch hqubits hdistinct hclbits hcounts.1 (Ne.symm hcounts.2)⟩
    · exact Or.inr ⟨_, .clbitNotFound hqubits hdistinct hsplit hdeclared hout⟩
  · by_cases hout : n ≤ q.index
    · exact Or.inr ⟨_, .qubitNotFound hsplit hfault hout hnames⟩
    · exact Or.inr ⟨_, .duplicateQubit hsplit hfault (UInt32.not_le.mp hout) hnames⟩

end Instruction

/-! ## What the checks report -/

namespace Circuit

/-- A qubit that is not new stands before it or has been seen. The first fault ends the check, whatever stands
behind. -/
theorem checkQubits_eq_error {c : Circuit} {gate : Option String} {seen : Std.TreeSet UInt32}
    {before after : List Qubit} {q : Qubit} (hdeclared : ∀ r ∈ before, r.index < c.numQubits)
    (hnew : ∀ r ∈ before, seen.contains r.index = false) (hdistinct : before.Nodup)
    (hfault : c.numQubits ≤ q.index ∨ q ∈ before ∨ seen.contains q.index = true) :
    c.checkQubits gate seen (before ++ q :: after) =
      .error (if c.numQubits ≤ q.index then .qubitNotFound q gate else .duplicateQubit q gate) := by
  induction before generalizing seen with
  | nil =>
    rw [List.nil_append, checkQubits]
    by_cases hout : c.numQubits ≤ q.index
    · rw [if_pos hout, if_pos hout]
    · have hseen : seen.contains q.index = true := by simpa [hout] using hfault
      rw [if_neg hout, if_neg hout, if_pos hseen]
  | cons r before ih =>
    rw [List.forall_mem_cons] at hdeclared hnew
    rw [List.nodup_cons] at hdistinct
    have hin : ¬ c.numQubits ≤ r.index := UInt32.not_le.mpr hdeclared.1
    have hfresh : ¬ seen.contains r.index = true := by simp [hnew.1]
    rw [List.cons_append, checkQubits, if_neg hin, if_neg hfresh]
    -- from here on `r` has been seen
    refine ih hdeclared.2 (fun r' hr' => ?_) hdistinct.2 ?_
    · exact contains_insert_eq_false.mpr ⟨fun he => hdistinct.1 (he ▸ hr'), hnew.2 r' hr'⟩
    · rcases hfault with hout | hmem | hseen
      · exact Or.inl hout
      · rcases List.mem_cons.mp hmem with rfl | hmem
        · exact Or.inr (Or.inr (by simp))
        · exact Or.inr (Or.inl hmem)
      · exact Or.inr (Or.inr (by simp [Std.TreeSet.contains_insert, hseen]))

theorem checkQubits_of_firstFault {c : Circuit} {gate : Option String} {before after : List Qubit} {q : Qubit}
    (h : FirstFault c.numQubits before q) :
    c.checkQubits gate ∅ (before ++ q :: after) =
      .error (if c.numQubits ≤ q.index then .qubitNotFound q gate else .duplicateQubit q gate) :=
  checkQubits_eq_error h.declared (by simp) h.distinct (h.fault.imp_right Or.inl)

theorem checkClbits_eq_error {c : Circuit} {before after : List Clbit} {b : Clbit}
    (hdeclared : ∀ b' ∈ before, b'.index < c.numClbits) (hout : c.numClbits ≤ b.index) :
    c.checkClbits (before ++ b :: after) = .error (.clbitNotFound b) := by
  induction before with
  | nil => rw [List.nil_append, checkClbits, if_pos hout]
  | cons b' before ih =>
    rw [List.forall_mem_cons] at hdeclared
    rw [List.cons_append, checkClbits, if_neg (UInt32.not_le.mpr hdeclared.1)]
    exact ih hdeclared.2

theorem check_of_misfit {c : Circuit} {i : Instruction} {e : CircuitError} (h : i.Misfit c.numQubits c.numClbits e) :
    c.check i = .error e := by
  have hpass : (∀ q ∈ i.qubits, q.index < c.numQubits) → i.qubits.Nodup →
      c.check i = (do c.checkClbits i.clbits; checkCounts i) := by
    intro hqubits hdistinct
    rw [check, (checkQubits_eq_ok_iff c _ ∅ i.qubits).mpr ⟨hqubits, by simp, hdistinct⟩]
    rfl
  cases h with
  | qubitNotFound hsplit hfault hout hnames =>
    rw [check, hsplit, checkQubits_of_firstFault hfault, if_pos hout, Instruction.names_iff.mp hnames]
    rfl
  | duplicateQubit hsplit hfault hin hnames =>
    rw [check, hsplit, checkQubits_of_firstFault hfault, if_neg (UInt32.not_le.mpr hin),
      Instruction.names_iff.mp hnames]
    rfl
  | clbitNotFound hqubits hdistinct hsplit hdeclared hout =>
    rw [hpass hqubits hdistinct, hsplit, checkClbits_eq_error hdeclared hout]
    rfl
  | clbitCountMismatch hqubits hdistinct hclbits hmeasure hcounts =>
    rw [hpass hqubits hdistinct, (checkClbits_eq_ok_iff c i.clbits).mpr hclbits]
    exact if_pos ⟨hmeasure, hcounts⟩

theorem check_eq_error_iff (c : Circuit) (i : Instruction) (e : CircuitError) :
    c.check i = .error e ↔ i.Misfit c.numQubits c.numClbits e := by
  refine ⟨fun h => ?_, check_of_misfit⟩
  rcases i.fits_or_misfit c.numQubits c.numClbits with hfits | ⟨e', hmisfit⟩
  · rw [(check_eq_ok_iff c i).mpr hfits] at h
    cases h
  · obtain rfl : e' = e := Except.error.inj ((check_of_misfit hmisfit).symm.trans h)
    exact hmisfit

/-- **What becomes of an instruction that is appended.** If its operands fit the registers it stands at the end, and all
else is as before. If they do not, what is wrong first is reported. -/
theorem apply_outcome (c : Circuit) (i : Instruction) :
    (∀ c', c.apply i = .ok c' ↔
      i.Fits c.numQubits c.numClbits ∧ c' = { c with instructions := c.instructions ++ [i] }) ∧
    ∀ e, c.apply i = .error e ↔ i.Misfit c.numQubits c.numClbits e :=
  ⟨fun _ => apply_eq_ok_iff, fun e => apply_eq_error_iff.trans (check_eq_error_iff c i e)⟩

/-- All the rules are broken here. The second qubit is reported: it comes before the third, which is not declared, and
before the classical bits. -/
example :
    ({ name := "pair", numQubits := 2, numClbits := 1 } : Circuit).check
      (.measure [⟨1⟩, ⟨1⟩, ⟨7⟩] [⟨5⟩]) = .error (.duplicateQubit ⟨1⟩ none) :=
  rfl

end Circuit

end GateGrid
