import Mathlib.Data.List.Nodup
import GateGrid.Circuit.Basic
import GateGrid.Proofs.Except

/-!
# Operands that fit the registers

* `Instruction.Fits n m i`: the operands of `i` are wires of registers of `n` qubits and `m` classical bits, no qubit
  stands twice, and a measurement has as many of the one as of the other.
* `Circuit.check_eq_ok_iff`: this is what `Circuit.check` lets through, whatever its set of seen qubits does.
* `Circuit.applyAll_eq_error`: the first instruction that does not fit makes the error, which is never that of a text.
* `Circuit.applyAll_eq_foldlM`: appending all instructions is appending them one by one.
* `Circuit.measureAll_eq`: measuring every qubit never fails.
-/

namespace GateGrid

/-- The operands of an instruction fit registers of `n` qubits and `m` classical bits. -/
structure Instruction.Fits (n m : UInt32) (i : Instruction) : Prop where
  qubits_lt : ∀ q ∈ i.qubits, q.index < n
  qubits_nodup : i.qubits.Nodup
  clbits_lt : ∀ b ∈ i.clbits, b.index < m
  counts : i.isMeasure = true → i.clbits.length = i.qubits.length

theorem Instruction.Fits.mono {n m n' m' : UInt32} {i : Instruction} (h : i.Fits n m) (hn : n ≤ n')
    (hm : m ≤ m') : i.Fits n' m' :=
  ⟨fun q hq => UInt32.lt_of_lt_of_le (h.qubits_lt q hq) hn, h.qubits_nodup,
    fun b hb => UInt32.lt_of_lt_of_le (h.clbits_lt b hb) hm, h.counts⟩

namespace Circuit

/-! ### The three checks -/

/-- The set of seen qubits goes by the index, and qubits of one index are one qubit. -/
theorem contains_insert_eq_false {seen : Std.TreeSet UInt32} {q r : Qubit} :
    (seen.insert q.index).contains r.index = false ↔ r ≠ q ∧ seen.contains r.index = false := by
  have hqr : q.index = r.index ↔ r = q := by
    cases q; cases r; simp [eq_comm]
  simp [Std.TreeSet.contains_insert, hqr]

/-- The set of seen qubits stands for the operands before: what passes is declared, new and without repetition. -/
theorem checkQubits_eq_ok_iff (c : Circuit) (gate : Option String) (seen : Std.TreeSet UInt32)
    (qubits : List Qubit) :
    c.checkQubits gate seen qubits = .ok () ↔
      (∀ q ∈ qubits, q.index < c.numQubits) ∧ (∀ q ∈ qubits, seen.contains q.index = false) ∧
        qubits.Nodup := by
  induction qubits generalizing seen with
  | nil => simp [checkQubits]
  | cons q rest ih =>
    simp only [checkQubits]
    split
    · rename_i hout
      have hnot : ¬ q.index < c.numQubits := UInt32.not_lt.mpr hout
      simp [hnot]
    · rename_i hin
      have hin : q.index < c.numQubits := UInt32.not_le.mp hin
      split
      · rename_i hdup
        simp [hdup]
      · rename_i hnew
        simp only [ih, contains_insert_eq_false, List.mem_cons, forall_eq_or_imp, List.nodup_cons]
        constructor
        · rintro ⟨h1, h2, h3⟩
          exact ⟨⟨hin, h1⟩, ⟨eq_false_of_ne_true hnew, fun r hr => (h2 r hr).2⟩, fun hq => (h2 q hq).1 rfl, h3⟩
        · rintro ⟨⟨-, h1⟩, ⟨-, h2⟩, h3, h4⟩
          exact ⟨h1, fun r hr => ⟨fun he => h3 (he ▸ hr), h2 r hr⟩, h4⟩

theorem checkClbits_eq_ok_iff (c : Circuit) (clbits : List Clbit) :
    c.checkClbits clbits = .ok () ↔ ∀ b ∈ clbits, b.index < c.numClbits := by
  induction clbits with
  | nil => simp [checkClbits]
  | cons b rest ih =>
    simp only [checkClbits]
    split
    · rename_i hout
      simp [UInt32.not_lt.mpr hout]
    · rename_i hin
      simp [ih, UInt32.not_le.mp hin]

theorem checkCounts_eq_ok_iff (i : Instruction) :
    checkCounts i = .ok () ↔ (i.isMeasure = true → i.clbits.length = i.qubits.length) := by
  unfold checkCounts
  split
  · rename_i h
    simp only [reduceCtorEq, false_iff]
    exact fun hc => h.2 (hc h.1).symm
  · rename_i h
    simp only [true_iff]
    intro hm
    by_contra hne
    exact h ⟨hm, fun he => hne he.symm⟩

theorem check_eq_ok_iff (c : Circuit) (i : Instruction) :
    c.check i = .ok () ↔ i.Fits c.numQubits c.numClbits := by
  simp only [check, Except.check_bind_eq_ok_iff, checkQubits_eq_ok_iff, checkClbits_eq_ok_iff, checkCounts_eq_ok_iff]
  constructor
  · rintro ⟨⟨h1, -, h2⟩, h3, h4⟩
    exact ⟨h1, h2, h3, h4⟩
  · rintro ⟨h1, h2, h3, h4⟩
    exact ⟨⟨h1, by simp, h2⟩, h3, h4⟩

/-! ### Appending -/

theorem apply_eq_ok_iff {c c' : Circuit} {i : Instruction} :
    c.apply i = .ok c' ↔
      i.Fits c.numQubits c.numClbits ∧ c' = { c with instructions := c.instructions ++ [i] } := by
  rw [apply, Except.check_bind_eq_ok_iff, check_eq_ok_iff, Except.pure_eq_ok_iff, eq_comm (b := c')]

theorem checkAll_eq_ok_iff (c : Circuit) (instructions : List Instruction) :
    c.checkAll instructions = .ok () ↔ ∀ i ∈ instructions, i.Fits c.numQubits c.numClbits := by
  induction instructions with
  | nil => simp [checkAll]
  | cons i rest ih =>
    rw [checkAll, Except.check_bind_eq_ok_iff, List.forall_mem_cons, check_eq_ok_iff, ih]

theorem applyAll_eq_ok_iff {c c' : Circuit} {instructions : List Instruction} :
    c.applyAll instructions = .ok c' ↔ (∀ i ∈ instructions, i.Fits c.numQubits c.numClbits) ∧
      c' = { c with instructions := c.instructions ++ instructions } := by
  rw [applyAll, Except.check_bind_eq_ok_iff, checkAll_eq_ok_iff, Except.pure_eq_ok_iff, eq_comm (b := c')]

/-! ### Errors -/

/-- The checks look at the sizes of the registers only. -/
theorem checkQubits_congr {c c' : Circuit} (h : c'.numQubits = c.numQubits) (gate : Option String)
    (seen : Std.TreeSet UInt32) (qubits : List Qubit) :
    c'.checkQubits gate seen qubits = c.checkQubits gate seen qubits := by
  induction qubits generalizing seen with
  | nil => rfl
  | cons q rest ih => rw [checkQubits, checkQubits, h, ih]

theorem checkClbits_congr {c c' : Circuit} (h : c'.numClbits = c.numClbits) (clbits : List Clbit) :
    c'.checkClbits clbits = c.checkClbits clbits := by
  induction clbits with
  | nil => rfl
  | cons b rest ih => rw [checkClbits, checkClbits, h, ih]

theorem check_congr {c c' : Circuit} (hn : c'.numQubits = c.numQubits) (hm : c'.numClbits = c.numClbits)
    (i : Instruction) : c'.check i = c.check i := by
  rw [check, check, checkQubits_congr hn, checkClbits_congr hm]

theorem checkAll_congr {c c' : Circuit} (hn : c'.numQubits = c.numQubits) (hm : c'.numClbits = c.numClbits)
    (instructions : List Instruction) : c'.checkAll instructions = c.checkAll instructions := by
  induction instructions with
  | nil => rfl
  | cons i rest ih => rw [checkAll, checkAll, check_congr hn hm, ih]

/-- Checking all instructions first comes to the same as appending them one by one, whether all fit or not: what has
been appended leaves the registers as they are. -/
theorem applyAll_eq_foldlM (c : Circuit) (instructions : List Instruction) :
    c.applyAll instructions = instructions.foldlM apply c := by
  induction instructions generalizing c with
  | nil =>
    show Except.ok { c with instructions := c.instructions ++ [] } = Except.ok c
    rw [List.append_nil]
  | cons i rest ih =>
    rw [List.foldlM_cons, applyAll, checkAll, apply]
    cases c.check i with
    | error e => rfl
    | ok u =>
      have hsame : checkAll { c with instructions := c.instructions ++ [i] } rest = c.checkAll rest :=
        checkAll_congr (by rfl) (by rfl) rest
      show (c.checkAll rest >>= fun _ => _) = rest.foldlM apply { c with instructions := c.instructions ++ [i] }
      rw [← ih, applyAll, hsame, List.append_assoc]
      rfl

theorem apply_eq_error_iff {c : Circuit} {i : Instruction} {e : CircuitError} :
    c.apply i = .error e ↔ c.check i = .error e := by
  simp only [apply, Except.check_bind_eq_error_iff, Except.pure_ne_error, and_false, or_false]

theorem checkQubits_ne_malformedText (c : Circuit) (gate : Option String) (seen : Std.TreeSet UInt32)
    (qubits : List Qubit) (fault : Json.Fault) : c.checkQubits gate seen qubits ≠ .error (.malformedText fault) := by
  induction qubits generalizing seen with
  | nil => simp [checkQubits]
  | cons q rest ih =>
    rw [checkQubits]
    split_ifs
    · simp
    · simp
    · exact ih _

theorem checkClbits_ne_malformedText (c : Circuit) (clbits : List Clbit) (fault : Json.Fault) :
    c.checkClbits clbits ≠ .error (.malformedText fault) := by
  induction clbits with
  | nil => simp [checkClbits]
  | cons b rest ih =>
    rw [checkClbits]
    split_ifs
    · simp
    · exact ih

/-- The errors of the checks name an operand or a count. -/
theorem check_ne_malformedText (c : Circuit) (i : Instruction) (fault : Json.Fault) :
    c.check i ≠ .error (.malformedText fault) := by
  intro h
  simp only [check, Except.check_bind_eq_error_iff] at h
  obtain hqubits | ⟨-, hclbits | ⟨-, hcounts⟩⟩ := h
  · exact c.checkQubits_ne_malformedText _ _ _ fault hqubits
  · exact c.checkClbits_ne_malformedText _ fault hclbits
  · unfold checkCounts at hcounts
    split_ifs at hcounts
    cases hcounts

theorem applyAll_ne_malformedText (c : Circuit) (instructions : List Instruction) (fault : Json.Fault) :
    c.applyAll instructions ≠ .error (.malformedText fault) := by
  have hall : c.checkAll instructions ≠ .error (.malformedText fault) := by
    induction instructions with
    | nil => simp [checkAll]
    | cons i rest ih =>
      rw [checkAll, Ne, Except.check_bind_eq_error_iff]
      rintro (hi | ⟨-, hrest⟩)
      · exact c.check_ne_malformedText i fault hi
      · exact ih hrest
  rw [applyAll, Ne, Except.check_bind_eq_error_iff]
  rintro (h | ⟨-, h⟩)
  · exact hall h
  · exact Except.pure_ne_error h

/-- The first instruction that does not fit makes the error. -/
theorem applyAll_eq_error {c : Circuit} {before after : List Instruction} {i : Instruction} {e : CircuitError}
    (hbefore : ∀ j ∈ before, j.Fits c.numQubits c.numClbits) (hi : c.check i = .error e) :
    c.applyAll (before ++ i :: after) = .error e := by
  have hall : c.checkAll (before ++ i :: after) = .error e := by
    induction before with
    | nil =>
      rw [List.nil_append, checkAll, hi]
      rfl
    | cons j before ih =>
      obtain ⟨hj, hbefore⟩ := List.forall_mem_cons.mp hbefore
      rw [List.cons_append, checkAll, (check_eq_ok_iff c j).mpr hj]
      exact ih hbefore
  rw [applyAll, hall]
  rfl

/-! ### All wires of a register -/

theorem mem_indices {size index : UInt32} : index ∈ indices size ↔ index < size := by
  simp only [indices, List.mem_map, List.mem_range, UInt32.lt_iff_toNat_lt]
  constructor
  · rintro ⟨k, hk, rfl⟩
    rwa [UInt32.toNat_ofNat_of_lt' (Nat.lt_trans hk size.toNat_lt)]
  · exact fun h => ⟨index.toNat, h, UInt32.ofNat_toNat⟩

theorem map_toNat_indices (size : UInt32) : (indices size).map UInt32.toNat = List.range size.toNat := by
  rw [indices, List.map_map]
  refine (List.map_congr_left fun k hk => ?_).trans (List.map_id _)
  have hlt : k < size.toNat := List.mem_range.mp hk
  exact UInt32.toNat_ofNat_of_lt' (Nat.lt_trans hlt size.toNat_lt)

theorem indices_nodup (size : UInt32) : (indices size).Nodup := by
  refine List.Nodup.map_on ?_ List.nodup_range
  intro a ha b hb hab
  rw [List.mem_range] at ha hb
  have h := congrArg UInt32.toNat hab
  rwa [UInt32.toNat_ofNat_of_lt' (Nat.lt_trans ha size.toNat_lt),
    UInt32.toNat_ofNat_of_lt' (Nat.lt_trans hb size.toNat_lt)] at h

theorem mem_allQubits {c : Circuit} {q : Qubit} : q ∈ c.allQubits ↔ q.index < c.numQubits := by
  simp only [allQubits, List.mem_map, ← mem_indices]
  constructor
  · rintro ⟨k, hk, rfl⟩
    exact hk
  · exact fun h => ⟨q.index, h, rfl⟩

theorem allQubits_nodup (c : Circuit) : c.allQubits.Nodup :=
  (indices_nodup c.numQubits).map fun _ _ h => congrArg Qubit.index h

theorem toNat_max_size (n m : UInt32) : (max n m).toNat = max n.toNat m.toNat := by
  show (if n ≤ m then m else n).toNat = _
  split <;> rename_i h <;> rw [UInt32.le_iff_toNat_le] at h <;> omega

theorem le_max_size (n m : UInt32) : n ≤ max n m ∧ m ≤ max n m := by
  simp only [UInt32.le_iff_toNat_le, toNat_max_size]
  omega

/-- A register that is not full grows by one. -/
theorem toNat_add_one {n : UInt32} (h : n.toNat + 1 < UInt32.size) : (n + 1).toNat = n.toNat + 1 := by
  rw [UInt32.toNat_add, UInt32.toNat_one, Nat.mod_eq_of_lt h]

/-- The classical register grows to the larger of the two sizes, and nothing else changes. -/
theorem growClbits_eq (c : Circuit) : c.growClbits = { c with numClbits := max c.numClbits c.numQubits } := by
  fun_induction growClbits c with
  | case1 c hlt ih =>
    have hlt' : c.numClbits.toNat < c.numQubits.toNat := hlt
    have hsize := c.numQubits.toNat_lt
    have hnext : (c.numClbits + 1).toNat = c.numClbits.toNat + 1 := toNat_add_one (by simp only [UInt32.size]; omega)
    have hmax : max (c.numClbits + 1) c.numQubits = max c.numClbits c.numQubits := by
      rw [← UInt32.toNat_inj, toNat_max_size, toNat_max_size, hnext]
      omega
    rw [ih]
    simp only [addClbit, hmax]
  | case2 c hge =>
    have hmax : max c.numClbits c.numQubits = c.numClbits := by
      have hle : ¬ c.numClbits.toNat < c.numQubits.toNat := hge
      rw [← UInt32.toNat_inj, toNat_max_size]
      omega
    rw [hmax]

theorem measureAll_eq_apply (c : Circuit) :
    c.measureAll = apply { c with numClbits := max c.numClbits c.numQubits }
      (.measure c.allQubits ((indices c.numQubits).map Clbit.mk)) := by
  rw [measureAll, growClbits_eq]
  rfl

/-- Measuring every qubit succeeds: the classical register has been made large enough. -/
theorem measureAll_eq (c : Circuit) :
    c.measureAll = .ok { c with
      numClbits := max c.numClbits c.numQubits
      instructions := c.instructions ++ [.measure c.allQubits ((indices c.numQubits).map Clbit.mk)] } := by
  rw [measureAll_eq_apply]
  refine apply_eq_ok_iff.mpr ⟨⟨fun q hq => ?_, ?_, fun b hb => ?_, fun _ => ?_⟩, rfl⟩
  · exact mem_allQubits.mp hq
  · exact allQubits_nodup _
  · obtain ⟨k, hk, rfl⟩ := List.mem_map.mp hb
    have hlt : k < c.numQubits := mem_indices.mp hk
    exact UInt32.lt_of_lt_of_le hlt (le_max_size _ _).2
  · simp [Instruction.measure, allQubits]

end Circuit

end GateGrid
