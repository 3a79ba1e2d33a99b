import Mathlib.Logic.Function.Iterate
import GateGrid.Proofs.Circuit.Reachable

/-!
# Measuring every qubit

`Circuit.measureAll` changes the circuit twice: a loop declares the classical bits that are missing, one in each round,
and then the measurement is appended, which in general can fail.

* `Circuit.Growing c`: the loop goes on, and the counter of classical bits has room for one more.
* `Circuit.growClbits_rounds`: the loop runs one round for each bit that is missing, and no round wraps the counter
  around, not even in the largest register.
* `Circuit.measureAll_outcome`: the measurement behind the loop never fails, so no register is left grown without it.
-/

namespace GateGrid.Circuit

/-! ## The loop -/

/-- A classical bit is missing, and there is room for one more. -/
structure Growing (c : Circuit) : Prop where
  missing : c.numClbits < c.numQubits
  room : Call.addClbit.Allowed c

/-- Where a bit is missing the counter lies below a word, so one more fits into it. -/
theorem growing_of_missing {c : Circuit} (h : c.numClbits < c.numQubits) : c.Growing := by
  have hlt : c.numClbits.toNat < c.numQubits.toNat := h
  have hsize := c.numQubits.toNat_lt
  have hroom : c.numClbits.toNat + 1 < UInt32.size := by
    simp only [UInt32.size]
    omega
  exact ⟨h, hroom⟩

/-- One round: what was missing is one less. -/
theorem Growing.missing_addClbit {c : Circuit} (h : c.Growing) :
    c.numQubits.toNat - c.numClbits.toNat =
      (c.addClbit.2.numQubits.toNat - c.addClbit.2.numClbits.toNat) + 1 := by
  have hlt : c.numClbits.toNat < c.numQubits.toNat := h.missing
  have hnext : c.addClbit.2.numClbits.toNat = c.numClbits.toNat + 1 := toNat_add_one h.room
  have hsame : c.addClbit.2.numQubits = c.numQubits := rfl
  rw [hnext, hsame]
  omega

/-- All rounds: each of them finds a bit missing and room for it, and behind the last one none is missing. -/
theorem growClbits_rounds (c : Circuit) :
    (∀ k < c.numQubits.toNat - c.numClbits.toNat, Growing ((fun d => d.addClbit.2)^[k] c)) ∧
      c.growClbits = (fun d => d.addClbit.2)^[c.numQubits.toNat - c.numClbits.toNat] c := by
  fun_induction growClbits c with
  | case1 c hlt ih =>
    have hgrowing := growing_of_missing hlt
    rw [hgrowing.missing_addClbit]
    refine ⟨fun k hk => ?_, ih.2⟩
    cases k with
    | zero => exact hgrowing
    | succ k => exact ih.1 k (by omega)
  | case2 c hge =>
    have hnone : c.numQubits.toNat - c.numClbits.toNat = 0 := by
      have hle : ¬ c.numClbits.toNat < c.numQubits.toNat := hge
      omega
    rw [hnone]
    exact ⟨fun k hk => absurd hk (Nat.not_lt_zero k), rfl⟩

/-! ## The measurement -/

/-- **Measuring every qubit**, for any sizes of the two registers: the loop runs one round for each classical bit that
is missing and has room for it each time, and the measurement that is appended to the grown circuit never fails. It
takes the qubits in order into the classical bits of the same indices. The classical register then has the larger of
the two sizes and all else is as before. Measuring once more changes no register. -/
theorem measureAll_outcome (c : Circuit) :
    let n := c.numQubits.toNat
    let m := c.numClbits.toNat
    (∀ k < n - m, Growing ((fun d => d.addClbit.2)^[k] c)) ∧ c.growClbits = (fun d => d.addClbit.2)^[n - m] c ∧
      ∃ i c', c.growClbits.apply i = .ok c' ∧ c.measureAll = .ok c' ∧
        i.operation = .measure ∧ i.qubits.map (·.index.toNat) = List.range n ∧
        i.clbits.map (·.index.toNat) = List.range n ∧
        c'.instructions = c.instructions ++ [i] ∧ c'.numClbits.toNat = max m n ∧
        c'.name = c.name ∧ c'.numQubits = c.numQubits ∧
        ∃ c'', c'.measureAll = .ok c'' ∧ c''.numQubits = c'.numQubits ∧ c''.numClbits = c'.numClbits := by
  intro n m
  obtain ⟨hrounds, hgrown⟩ := growClbits_rounds c
  have hqubits : c.allQubits.map (·.index.toNat) = List.range n := by
    rw [allQubits, List.map_map]
    exact map_toNat_indices c.numQubits
  have hclbits : ((indices c.numQubits).map Clbit.mk).map (·.index.toNat) = List.range n := by
    rw [List.map_map]
    exact map_toNat_indices c.numQubits
  refine ⟨hrounds, hgrown, _, _, ?_, measureAll_eq c, rfl, hqubits, hclbits, rfl, toNat_max_size _ _, rfl, rfl,
    _, measureAll_eq _, rfl, ?_⟩
  · rw [growClbits_eq, ← measureAll_eq_apply, measureAll_eq]
  · -- the classical register is not the smaller one any more
    rw [← UInt32.toNat_inj]
    simp only [toNat_max_size]
    omega

/-- A full quantum register takes the classical one to the last value of its counter. -/
example (name : String) :
    ∃ c, measureAll { name, numQubits := 4294967295, numClbits := 4294967294 } = .ok c ∧ c.numClbits = 4294967295 :=
  ⟨_, measureAll_eq _, rfl⟩

end GateGrid.Circuit
