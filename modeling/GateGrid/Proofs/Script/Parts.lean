import GateGrid.Proofs.Script.Encodable

/-!
# The parts of a block

A block is made of the row and the header of one gate, each of which can fail. Here they stand alone: the operands need
not be distinct nor lie inside the row, and the gate need not take as many angles as there are.

* `Symbol.Placeable g qubits width`: there are no operands, or one for each code, all of them inside the row.
* `Symbol.Misplaced g qubits width e`: `e` reports what is wrong with them, their number first.
* `Symbol.row_outcome`: the row of a gate cell by cell, or the error.
* `Symbol.header_outcome`: the header of a gate angle by angle, or the error.
-/

namespace GateGrid

namespace Symbol

/-! ## Rows -/

section Rows

variable {g : Symbol} {qubits : List Qubit} {width : Nat} {row : List Char} {e : EncodeError}

/-- There are no operands, or one for each code, all of them inside a row of this width. -/
def Placeable (g : Symbol) (qubits : List Qubit) (width : Nat) : Prop :=
  qubits = [] ∨ qubits.length = g.codes.length ∧ ∀ q ∈ qubits, q.index.toNat < width

/-- What is reported of operands that cannot be placed: a wrong number of them, and only if the number is right the
first one that is outside of the row. -/
inductive Misplaced (g : Symbol) (qubits : List Qubit) (width : Nat) : EncodeError → Prop where
  | qubitCountMismatch (nonempty : qubits ≠ []) (count : qubits.length ≠ g.codes.length) :
      Misplaced g qubits width (.qubitCountMismatch g qubits.length)
  | qubitOutOfRange {before after : List Qubit} {q : Qubit} (count : qubits.length = g.codes.length)
      (split : qubits = before ++ q :: after) (inside : ∀ r ∈ before, r.index.toNat < width)
      (outside : width ≤ q.index.toNat) : Misplaced g qubits width (.qubitOutOfRange g q.index.toNat width)

theorem placeable_or_misplaced (g : Symbol) (qubits : List Qubit) (width : Nat) :
    g.Placeable qubits width ∨ ∃ e, g.Misplaced qubits width e := by
  by_cases hnil : qubits = []
  · exact Or.inl (Or.inl hnil)
  by_cases hlen : qubits.length = g.codes.length
  · cases hfind : qubits.find? (fun q => width ≤ q.index.toNat) with
    | none =>
      refine Or.inl (Or.inr ⟨hlen, fun q hq => ?_⟩)
      simpa using List.find?_eq_none.mp hfind q hq
    | some q =>
      obtain ⟨hout, before, after, hsplit, hbefore⟩ := List.find?_eq_some_iff_append.mp hfind
      exact Or.inr ⟨_, .qubitOutOfRange hlen hsplit (by simpa using hbefore) (by simpa using hout)⟩
  · exact Or.inr ⟨_, .qubitCountMismatch hnil hlen⟩

/-- The cells of the operands in front have been written by then, which leaves the row as long as it was. -/
theorem place_eq_error {before after : List Qubit} {q : Qubit} {codes : List Char}
    (hlen : before.length < codes.length) (hbefore : ∀ r ∈ before, r.index.toNat < row.length)
    (hout : row.length ≤ q.index.toNat) :
    g.place ((before ++ q :: after).zip codes) row = .error (.qubitOutOfRange g q.index.toNat row.length) := by
  induction before generalizing codes row with
  | nil =>
    obtain ⟨code, codes, rfl⟩ := List.exists_cons_of_length_pos hlen
    rw [List.nil_append, List.zip_cons_cons, place, if_neg (by omega)]
  | cons r before ih =>
    obtain ⟨code, codes, rfl⟩ := List.exists_cons_of_length_pos (Nat.zero_lt_of_lt hlen)
    rw [List.forall_mem_cons] at hbefore
    rw [List.cons_append, List.zip_cons_cons, place, if_pos hbefore.1]
    have hsame : (row.set r.index.toNat code).length = row.length := List.length_set
    have hrest : ∀ r' ∈ before, r'.index.toNat < (row.set r.index.toNat code).length := by
      intro r' hr'
      rw [hsame]
      exact hbefore.2 r' hr'
    rw [ih (Nat.lt_of_succ_lt_succ hlen) hrest (hsame.trans_le hout), hsame]

theorem row_of_misplaced (h : g.Misplaced qubits width e) : g.row qubits width = .error e := by
  cases h with
  | qubitCountMismatch hnil hlen => exact row_eq_error hnil hlen
  | @qubitOutOfRange before after q hlen hsplit hbefore hout =>
    have hshort : before.length < g.codes.length := by
      rw [← hlen, hsplit]
      simp
    have hcells : (List.replicate width identityCode).length = width := List.length_replicate
    have hplace : g.place (qubits.zip g.codes) (List.replicate width identityCode) =
        .error (.qubitOutOfRange g q.index.toNat width) := by
      rw [hsplit, place_eq_error hshort (by rwa [hcells]) (by rwa [hcells]), hcells]
    have hcount : qubits.length = g.numQubits := hlen
    rw [row, if_neg (by simp [hsplit]), if_neg (not_not.mpr hcount), hplace]

theorem row_of_placeable (h : g.Placeable qubits width) :
    ∃ row, g.row qubits width = .ok row ∧ IsRow g.codes qubits width row := by
  have hcount : qubits = [] ∨ qubits.length = g.codes.length := h.imp_right And.left
  have hwidth : ∀ q ∈ qubits, q.index.toNat < width := by
    rcases h with rfl | ⟨-, hlt⟩
    · simp
    · exact hlt
  obtain ⟨row, hrow⟩ := exists_row hcount hwidth
  exact ⟨row, hrow, isRow_of_row hrow⟩

theorem row_eq_error_iff (g : Symbol) (qubits : List Qubit) (width : Nat) (e : EncodeError) :
    g.row qubits width = .error e ↔ g.Misplaced qubits width e := by
  refine ⟨fun h => ?_, row_of_misplaced⟩
  rcases g.placeable_or_misplaced qubits width with hplace | ⟨e', hmis⟩
  · obtain ⟨row, hrow, -⟩ := row_of_placeable hplace
    rw [hrow] at h
    cases h
  · obtain rfl : e' = e := Except.error.inj ((row_of_misplaced hmis).symm.trans h)
    exact hmis

theorem row_eq_ok_iff (g : Symbol) (qubits : List Qubit) (width : Nat) (row : List Char) :
    g.row qubits width = .ok row ↔ g.Placeable qubits width ∧ IsRow g.codes qubits width row := by
  constructor
  · intro h
    refine ⟨?_, isRow_of_row h⟩
    rcases g.placeable_or_misplaced qubits width with hplace | ⟨e, hmis⟩
    · exact hplace
    · rw [row_of_misplaced hmis] at h
      cases h
  · rintro ⟨hplace, hrow⟩
    obtain ⟨row', hrow', hcells⟩ := row_of_placeable hplace
    rw [hrow', hcells.unique hrow]

/-- **Rows.** Without operands a gate has the identity row. Otherwise a wrong number of operands is reported with the
number that it should be, then the first operand outside of the row, and if nothing is wrong each cell shows the last
operand on its wire. With no operand twice, each operand finds its own code in its cell. -/
theorem row_outcome (g : Symbol) (qubits : List Qubit) (width : Nat) :
    g.row [] width = .ok (List.replicate width 'I') ∧
    (∀ e, g.row qubits width = .error e ↔ g.Misplaced qubits width e) ∧
    (∀ got, (EncodeError.qubitCountMismatch g got).message =
      s!"Gate '{g.name}' expects {g.codes.length} qubits, got {got}") ∧
    (∀ row, g.row qubits width = .ok row ↔ g.Placeable qubits width ∧ IsRow g.codes qubits width row) ∧
    ∀ row, g.row qubits width = .ok row → qubits.Nodup → ∀ k (hk : k < qubits.length),
      ∃ x, g.codes[k]? = some x ∧ row[qubits[k].index.toNat]? = some x := by
  refine ⟨rfl, g.row_eq_error_iff qubits width, fun _ => rfl, g.row_eq_ok_iff qubits width, ?_⟩
  intro row hrow hnodup k hk
  obtain ⟨hplace, hcells⟩ := (g.row_eq_ok_iff qubits width row).mp hrow
  rcases hplace with rfl | ⟨hlen, hlt⟩
  · cases hk
  · obtain ⟨x, hx⟩ : ∃ x, g.codes[k]? = some x := ⟨_, List.getElem?_eq_getElem (hlen ▸ hk)⟩
    exact ⟨x, hx, hcells.getElem?_operand hnodup hlt (List.getElem?_eq_getElem hk) hx⟩

/-- The target has the last word where it is the control too, and the number of operands is reported before their
places. -/
example : Symbol.cx.row [⟨1⟩, ⟨1⟩] 3 = .ok ['I', 'X', 'I'] ∧
    Symbol.ccx.row [⟨0⟩, ⟨9⟩] 0 = .error (.qubitCountMismatch .ccx 2) ∧
    Symbol.cx.row [⟨4⟩, ⟨9⟩] 2 = .error (.qubitOutOfRange .cx 4 2) :=
  ⟨rfl, rfl, rfl⟩

end Rows

/-! ## Headers -/

section Headers

variable {g : Symbol} {policy : Policy} {params : List Float}

theorem header_of_not_hasHeader (h : ¬ g.hasHeader = true) : g.header policy params = .ok none := by
  unfold header
  rw [if_pos h]

theorem header_of_hasHeader (h : g.hasHeader = true) (hfit : policy = .strict → AnglesFit g.name params.length) :
    g.header policy params = .ok (some (g.angles params)) := by
  obtain ⟨header, hheader⟩ := exists_header hfit
  have hangles := header_eq_ok hheader
  rw [if_pos h] at hangles
  rw [hheader, hangles]

/-- **Headers.** A gate without free angles has none, whatever its list. The others have one under the strict policy if
the list is of their length, and always under the lenient policy. Its angles are the list behind the two zeros of a
controlled phase, cut off or filled up with zeros to three, the same doubles bit for bit. -/
theorem header_outcome (g : Symbol) (params : List Float) :
    (g.name ∉ ["ry", "u", "cu", "cp"] → ∀ policy, g.header policy params = .ok none) ∧
    (g.name ∈ ["ry", "u", "cu", "cp"] →
      ((∃ h, g.header .strict params = .ok (some h)) ↔ AnglesFit g.name params.length) ∧
      (¬ AnglesFit g.name params.length →
        g.header .strict params = .error (.malformedParameters g params.length)) ∧
      ∃ h, g.header .lenient params = .ok (some h)) ∧
    ∀ policy h, g.header policy params = .ok (some h) →
      h.toList = ((if g.name = "cp" then [0, 0] else []) ++ params ++ [0, 0, 0]).take 3 := by
  simp only [← hasHeader_iff]
  refine ⟨fun hno _ => header_of_not_hasHeader hno, fun hhas => ⟨⟨?_, ?_⟩, header_eq_error rfl, ?_⟩, ?_⟩
  · rintro ⟨h, hh⟩
    by_contra hangles
    rw [header_eq_error rfl hangles] at hh
    cases hh
  · exact fun hfit => ⟨_, header_of_hasHeader hhas fun _ => hfit⟩
  · exact ⟨_, header_of_hasHeader hhas (by simp)⟩
  · intro policy h hh
    have hangles := header_eq_ok hh
    by_cases hhas : g.hasHeader = true
    · rw [if_pos hhas, Option.some.injEq] at hangles
      rw [hangles, angles_toList]
    · rw [if_neg hhas] at hangles
      cases hangles

end Headers

end Symbol

end GateGrid
