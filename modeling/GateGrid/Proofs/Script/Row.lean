import Mathlib.Data.List.Nodup
import Mathlib.Order.Bounds.Basic
import Mathlib.Order.MinMax
import GateGrid.Script.Row

/-!
# What a row shows

* `CellShows codes qubits j x`: `x` is the code of the last operand that is `j`, or the identity code if no operand is.
* `IsRow codes qubits width row`: `row` has one such cell for each wire below `width`.
* `Symbol.isRow_of_row`: `Symbol.row` gives such a row, although it writes one operand after the other.
* `rowWidth_isGreatest`: the width is one more than the highest wire named.
-/

namespace GateGrid

/-! ### Cells -/

theorem Qubit.toNat_index_inj {q r : Qubit} : q.index.toNat = r.index.toNat ↔ q = r := by
  cases q
  cases r
  rw [UInt32.toNat_inj, Qubit.mk.injEq]

/-- The cell of wire `j`: the code of the last operand that is `j`, the identity code if there is none. -/
def CellShows (codes : List Char) (qubits : List Qubit) (j : Nat) (x : Char) : Prop :=
  (∃ (k : Nat) (q : Qubit), qubits[k]? = some q ∧ q.index.toNat = j ∧ codes[k]? = some x ∧
    ∀ (k' : Nat) (q' : Qubit), k < k' → qubits[k']? = some q' → q'.index.toNat ≠ j) ∨
  (∀ q ∈ qubits, q.index.toNat ≠ j) ∧ x = 'I'

/-- A row of the given width, cell by cell. -/
structure IsRow (codes : List Char) (qubits : List Qubit) (width : Nat) (row : List Char) : Prop where
  length : row.length = width
  cell : ∀ j (hj : j < row.length), CellShows codes qubits j row[j]

/-- A cell shows one character. -/
theorem CellShows.unique {codes : List Char} {qubits : List Qubit} {j : Nat} {x y : Char}
    (h : CellShows codes qubits j x) (h' : CellShows codes qubits j y) : x = y := by
  rcases h with ⟨k, q, hk, hq, hx, hlast⟩ | ⟨hnone, rfl⟩
  · rcases h' with ⟨k', q', hk', hq', hy, hlast'⟩ | ⟨hnone, -⟩
    · -- each of the two operands is the last one on the wire
      rcases Nat.lt_trichotomy k k' with hlt | rfl | hlt
      · exact absurd hq' (hlast k' q' hlt hk')
      · exact Option.some.inj (hx.symm.trans hy)
      · exact absurd hq (hlast' k q hlt hk)
    · exact absurd hq (hnone q (List.mem_of_getElem? hk))
  · rcases h' with ⟨k', q', hk', hq', -, -⟩ | ⟨-, rfl⟩
    · exact absurd hq' (hnone q' (List.mem_of_getElem? hk'))
    · rfl

/-- The cells make the row. -/
theorem IsRow.unique {codes : List Char} {qubits : List Qubit} {width : Nat} {row row' : List Char}
    (h : IsRow codes qubits width row) (h' : IsRow codes qubits width row') : row = row' := by
  refine List.ext_getElem (h.length.trans h'.length.symm) fun j hj hj' => ?_
  exact (h.cell j hj).unique (h'.cell j hj')

/-- With no operand twice, the last operand on a wire is the only one. -/
theorem IsRow.getElem?_operand {codes : List Char} {qubits : List Qubit} {width : Nat} {row : List Char}
    (hrow : IsRow codes qubits width row) (hnodup : qubits.Nodup) (hlt : ∀ q ∈ qubits, q.index.toNat < width)
    {k : Nat} {q : Qubit} {x : Char} (hq : qubits[k]? = some q) (hx : codes[k]? = some x) :
    row[q.index.toNat]? = some x := by
  have hj : q.index.toNat < row.length := hrow.length ▸ hlt q (List.mem_of_getElem? hq)
  rw [List.getElem?_eq_getElem hj]
  rcases hrow.cell _ hj with ⟨k', q', hkq', hq', hkx', -⟩ | ⟨hnone, -⟩
  · obtain rfl := Qubit.toNat_index_inj.mp hq'
    obtain ⟨hklt, hkget⟩ := List.getElem?_eq_some_iff.mp hq
    obtain ⟨hklt', hkget'⟩ := List.getElem?_eq_some_iff.mp hkq'
    have hkk : k = k' := (List.Nodup.getElem_inj_iff hnodup).mp (hkget.trans hkget'.symm)
    rw [← hkx', ← hkk, hx]
  · exact absurd rfl (hnone q (List.mem_of_getElem? hq))

namespace Symbol

variable {symbol : Symbol} {row row' : List Char}

theorem place_length {pairs : List (Qubit × Char)} (h : symbol.place pairs row = .ok row') :
    row'.length = row.length := by
  induction pairs generalizing row with
  | nil => rw [Except.ok.inj h]
  | cons p rest ih =>
    simp only [place] at h
    split at h
    · rw [ih h, List.length_set]
    · cases h

/-- Operands are placed from the first to the last, so a cell shows the last one, and what it showed before if it is
no operand. -/
theorem place_getElem {pairs : List (Qubit × Char)} (h : symbol.place pairs row = .ok row') (j : Nat) :
    (∃ (k : Nat) (p : Qubit × Char), pairs[k]? = some p ∧ p.1.index.toNat = j ∧ row'[j]? = some p.2 ∧
      ∀ (k' : Nat) (p' : Qubit × Char), k < k' → pairs[k']? = some p' → p'.1.index.toNat ≠ j) ∨
    (∀ p ∈ pairs, p.1.index.toNat ≠ j) ∧ row'[j]? = row[j]? := by
  induction pairs generalizing row with
  | nil =>
    obtain rfl := Except.ok.inj h
    exact Or.inr ⟨by simp, rfl⟩
  | cons p rest ih =>
    obtain ⟨q, code⟩ := p
    simp only [place] at h
    split at h
    · rename_i hq
      rcases ih h with ⟨k, p, hk, hp, hrow, hlast⟩ | ⟨hnone, hrow⟩
      · refine Or.inl ⟨k + 1, p, hk, hp, hrow, fun k' p' hlt hp' => ?_⟩
        obtain ⟨k', rfl⟩ : ∃ n, k' = n + 1 := ⟨k' - 1, by omega⟩
        exact hlast k' p' (by omega) hp'
      · by_cases hj : q.index.toNat = j
        · refine Or.inl ⟨0, (q, code), rfl, hj, ?_, fun k' p' hlt hp' => ?_⟩
          · rw [hrow, hj, List.getElem?_set_self (hj ▸ hq)]
          · obtain ⟨k', rfl⟩ : ∃ n, k' = n + 1 := ⟨k' - 1, by omega⟩
            exact hnone p' (List.mem_of_getElem? hp')
        · refine Or.inr ⟨fun p hp => ?_, by rw [hrow, List.getElem?_set_ne hj]⟩
          rcases List.mem_cons.mp hp with rfl | hp
          · exact hj
          · exact hnone p hp
    · cases h

/-- Operands and codes are paired in order, so the last pair of a wire is its last operand. -/
theorem cellShows_of_place {codes : List Char} {qubits : List Qubit} {width : Nat}
    (hlen : qubits.length = codes.length)
    (h : symbol.place (qubits.zip codes) (List.replicate width 'I') = .ok row) {j : Nat}
    (hj : j < row.length) : CellShows codes qubits j row[j] := by
  have hw : j < width := by
    have hl := place_length h
    rw [List.length_replicate] at hl
    omega
  rcases place_getElem h j with ⟨k, ⟨q, x⟩, hk, hq, hrow, hlast⟩ | ⟨hnone, hrow⟩
  · obtain ⟨hkq, hkx⟩ := List.getElem?_zip_eq_some.mp hk
    rw [List.getElem?_eq_getElem hj, Option.some.injEq] at hrow
    refine Or.inl ⟨k, q, hkq, hq, by rw [hrow]; exact hkx, fun k' q' hlt hq' => ?_⟩
    obtain ⟨hk', -⟩ := List.getElem?_eq_some_iff.mp hq'
    exact hlast k' (q', codes[k']) hlt
      (List.getElem?_zip_eq_some.mpr ⟨hq', List.getElem?_eq_getElem (by omega)⟩)
  · refine Or.inr ⟨fun q hq => ?_, ?_⟩
    · obtain ⟨k, hk⟩ := List.getElem?_of_mem hq
      obtain ⟨hk', -⟩ := List.getElem?_eq_some_iff.mp hk
      exact hnone (q, codes[k]) (List.mem_of_getElem?
        (List.getElem?_zip_eq_some.mpr ⟨hk, List.getElem?_eq_getElem (by omega)⟩))
    · rw [List.getElem?_eq_getElem hj, List.getElem?_replicate_of_lt hw] at hrow
      exact Option.some.inj hrow

theorem length_of_row {qubits : List Qubit} {width : Nat} (h : symbol.row qubits width = .ok row) :
    qubits = [] ∨ qubits.length = symbol.codes.length := by
  simp only [Symbol.row] at h
  split at h
  · rename_i he
    exact Or.inl (List.isEmpty_iff.mp he)
  split at h
  · cases h
  · rename_i hl
    exact Or.inr (not_not.mp hl)

theorem codes_length_pos (symbol : Symbol) : 0 < symbol.codes.length := by
  cases symbol <;> decide

/-- With an operand for each code, the row is the identity row with the codes placed. -/
theorem row_eq_place {qubits : List Qubit} (hlen : qubits.length = symbol.codes.length) (width : Nat) :
    symbol.row qubits width = symbol.place (qubits.zip symbol.codes) (List.replicate width identityCode) := by
  have hnil : qubits ≠ [] := List.length_pos_iff.mp (hlen ▸ symbol.codes_length_pos)
  have hcount : qubits.length = symbol.numQubits := hlen
  simp only [row, List.isEmpty_iff, hnil, hcount, ne_eq, not_true_eq_false, if_false]

/-- **Rows are as described.** -/
theorem isRow_of_row {qubits : List Qubit} {width : Nat} (h : symbol.row qubits width = .ok row) :
    IsRow symbol.codes qubits width row := by
  rcases length_of_row h with rfl | hlen
  · obtain rfl : row = List.replicate width 'I' := (Except.ok.inj h).symm
    exact ⟨List.length_replicate, fun j hj => Or.inr ⟨by simp, by simp⟩⟩
  · rw [row_eq_place hlen] at h
    exact ⟨by rw [place_length h, List.length_replicate], fun j hj => cellShows_of_place hlen h hj⟩

end Symbol

/-! ### Width -/

theorem foldl_max_isGreatest (ns : List Nat) (n : Nat) : IsGreatest {k | k = n ∨ k ∈ ns} (ns.foldl max n) := by
  induction ns generalizing n with
  | nil => exact ⟨Or.inl rfl, by rintro k (rfl | hk); exacts [le_rfl, absurd hk List.not_mem_nil]⟩
  | cons m rest ih =>
    obtain ⟨hmem, hle⟩ := ih (max n m)
    refine ⟨?_, ?_⟩
    · rcases hmem with h | h
      · rw [List.foldl_cons, h]
        rcases max_choice n m with hm | hm
        · exact Or.inl hm
        · rw [hm]
          exact Or.inr List.mem_cons_self
      · exact Or.inr (List.mem_cons_of_mem _ h)
    · have htop : max n m ≤ rest.foldl max (max n m) := hle (Or.inl rfl)
      rintro k (rfl | hk)
      · exact (le_max_left _ _).trans htop
      · rcases List.mem_cons.mp hk with rfl | hk
        · exact (le_max_right _ _).trans htop
        · exact hle (Or.inr hk)

/-- The width is one more than the highest wire that the instructions name, and one if that is less. -/
theorem rowWidth_isGreatest (instructions : List Instruction) :
    IsGreatest {w | w = 1 ∨ ∃ i ∈ instructions, ∃ q ∈ i.qubits, w = q.index.toNat + 1}
      (rowWidth instructions) := by
  have h := foldl_max_isGreatest ((instructions.flatMap (·.qubits)).map fun q => q.index.toNat + 1) 1
  have hset : {w | w = 1 ∨ ∃ i ∈ instructions, ∃ q ∈ i.qubits, w = q.index.toNat + 1} =
      {w | w = 1 ∨ w ∈ (instructions.flatMap (·.qubits)).map fun q => q.index.toNat + 1} := by
    ext w
    simp only [Set.mem_ofPred_eq, List.mem_map, List.mem_flatMap]
    constructor
    · rintro (h | ⟨i, hi, q, hq, rfl⟩)
      · exact Or.inl h
      · exact Or.inr ⟨q, ⟨i, hi, hq⟩, rfl⟩
    · rintro (h | ⟨q, ⟨i, hi, hq⟩, rfl⟩)
      · exact Or.inl h
      · exact Or.inr ⟨i, hi, q, hq, rfl⟩
  rw [hset]
  exact h

theorem one_le_rowWidth (instructions : List Instruction) : 1 ≤ rowWidth instructions :=
  (rowWidth_isGreatest instructions).2 (Or.inl rfl)

/-- Every operand has a cell. -/
theorem lt_rowWidth {instructions : List Instruction} {i : Instruction} (hi : i ∈ instructions) {q : Qubit}
    (hq : q ∈ i.qubits) : q.index.toNat < rowWidth instructions :=
  (rowWidth_isGreatest instructions).2 (Or.inr ⟨i, hi, q, hq, rfl⟩)

theorem rowWidth_le_iff {instructions : List Instruction} {width : Nat} :
    rowWidth instructions ≤ width ↔
      1 ≤ width ∧ ∀ i ∈ instructions, ∀ q ∈ i.qubits, q.index.toNat < width := by
  constructor
  · intro h
    exact ⟨(one_le_rowWidth _).trans h, fun i hi q hq => (lt_rowWidth hi hq).trans_le h⟩
  · rintro ⟨hone, hlt⟩
    rcases (rowWidth_isGreatest instructions).1 with h | ⟨i, hi, q, hq, h⟩
    · rw [h]
      exact hone
    · rw [h]
      exact hlt i hi q hq

end GateGrid
