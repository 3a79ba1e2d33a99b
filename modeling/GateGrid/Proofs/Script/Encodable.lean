import GateGrid.Proofs.Script.Blocks

/-!
# When a circuit has a script

* `Instruction.Encodable policy i`: `i` names a gate of the table, has no operands or one for each code of the gate,
  and under the strict policy as many angles as the header of the gate takes.
* `Instruction.Rejected policy i e`: `e` reports the first of these three that `i` lacks.
* `FirstRejected policy instructions e`: `e` reports the first instruction that cannot be written.
* `Circuit.script_eq_ok_iff`, `Circuit.script_eq_error_iff`: what a run ends with, said without the run. No circuit is
  too narrow for its own operands, so the check of their range plays no part.
* `Circuit.fileString_outcome`: the same for the text of a file.
-/

namespace GateGrid

attribute [ext] Block Script

/-! ## The gate table -/

namespace Symbol

variable {g : Symbol} {policy : Policy} {qubits : List Qubit} {width : Nat}

theorem ofName?_name (g : Symbol) : ofName? g.name = some g := by
  cases g <;> rfl

theorem ofName?_eq_some_iff {name : String} : ofName? name = some g ↔ g.name = name :=
  ⟨name_of_ofName?, fun h => h ▸ ofName?_name g⟩

theorem ofName?_eq_none_iff {name : String} : ofName? name = none ↔ ∀ g : Symbol, g.name ≠ name := by
  simp only [Option.eq_none_iff_forall_ne_some, ne_eq, ofName?_eq_some_iff]

/-! ### Operands -/

theorem exists_place {pairs : List (Qubit × Char)} {row : List Char}
    (h : ∀ p ∈ pairs, p.1.index.toNat < row.length) : ∃ row', g.place pairs row = .ok row' := by
  induction pairs generalizing row with
  | nil => exact ⟨row, rfl⟩
  | cons p rest ih =>
    obtain ⟨q, code⟩ := p
    have hq : q.index.toNat < row.length := h _ List.mem_cons_self
    have hrest : ∀ p ∈ rest, p.1.index.toNat < (row.set q.index.toNat code).length := by
      intro p hp
      rw [List.length_set]
      exact h p (List.mem_cons_of_mem _ hp)
    obtain ⟨row', hrow'⟩ := ih hrest
    exact ⟨row', by rw [place, if_pos hq, hrow']⟩

/-- Operands that are as many as the codes and have cells can be placed. -/
theorem exists_row (hcount : qubits = [] ∨ qubits.length = g.codes.length)
    (hwidth : ∀ q ∈ qubits, q.index.toNat < width) : ∃ row, g.row qubits width = .ok row := by
  by_cases hnil : qubits = []
  · exact ⟨_, by rw [row, hnil]; rfl⟩
  · have hcells : ∀ p ∈ qubits.zip g.codes, p.1.index.toNat < (List.replicate width identityCode).length := by
      intro p hp
      rw [List.length_replicate]
      exact hwidth p.1 (List.of_mem_zip hp).1
    rw [row_eq_place (hcount.resolve_left hnil)]
    exact exists_place hcells

theorem row_eq_error (hnil : qubits ≠ []) (hlen : qubits.length ≠ g.codes.length) :
    g.row qubits width = .error (.qubitCountMismatch g qubits.length) := by
  have hlen' : qubits.length ≠ g.numQubits := hlen
  simp only [row, List.isEmpty_iff, hnil, if_false, ne_eq, hlen', not_false_eq_true, if_true]

end Symbol

/-! ### Angles -/

/-- A gate of this name takes this number of angles: one if it is `ry` or `cp`, three or four if it is `u` or `cu`, any
number if it has no header. -/
def AnglesFit (name : String) (count : Nat) : Prop :=
  (name ∈ ["ry", "cp"] → count = 1) ∧ (name ∈ ["u", "cu"] → count = 3 ∨ count = 4)

namespace Symbol

variable {g : Symbol} {policy : Policy} {params : List Float}

/-- The shapes that a gate takes are those of its length. -/
theorem isSome_acceptedAngles? (g : Symbol) (params : List Float) :
    (g.acceptedAngles? params).isSome = true ↔ g.hasHeader = true ∧ AnglesFit g.name params.length := by
  cases g with
  | ry | cp | u | cu =>
    -- no shape is longer than four
    rcases params with _ | ⟨a, _ | ⟨b, _ | ⟨d, _ | ⟨x, _ | ⟨y, rest⟩⟩⟩⟩⟩ <;>
      simp [acceptedAngles?, hasHeader, AnglesFit, name]
  | _ => simp [acceptedAngles?, hasHeader]

theorem anglesFit_of_not_hasHeader (h : ¬ g.hasHeader = true) (count : Nat) : AnglesFit g.name count := by
  cases g <;> first | exact absurd rfl h | simp [AnglesFit, name]

theorem exists_header (h : policy = .strict → AnglesFit g.name params.length) :
    ∃ header, g.header policy params = .ok header := by
  unfold header
  by_cases hhas : g.hasHeader = true
  · rw [if_neg (not_not.mpr hhas)]
    cases haccepted : g.acceptedAngles? params with
    | some values => exact ⟨_, rfl⟩
    | none =>
      cases policy with
      | strict =>
        have hsome := (isSome_acceptedAngles? g params).mpr ⟨hhas, h rfl⟩
        rw [haccepted] at hsome
        cases hsome
      | lenient => exact ⟨_, rfl⟩
  · exact ⟨none, by rw [if_pos hhas]⟩

theorem header_eq_error (hstrict : policy = .strict) (h : ¬ AnglesFit g.name params.length) :
    g.header policy params = .error (.malformedParameters g params.length) := by
  have hhas : g.hasHeader = true := by
    by_contra hno
    exact h (anglesFit_of_not_hasHeader hno _)
  have hnone : g.acceptedAngles? params = none := by
    by_contra hsome
    exact h ((isSome_acceptedAngles? g params).mp (Option.isSome_iff_ne_none.mpr hsome)).2
  subst hstrict
  rw [header, if_neg (not_not.mpr hhas), hnone]

end Symbol

/-! ## One instruction -/

namespace Instruction

/-- The instruction names a gate of the table, has no operands or one for each code of the gate, and under the strict
policy a number of angles that the gate takes. -/
def Encodable (policy : Policy) (i : Instruction) : Prop :=
  ∃ g : Symbol, g.name = i.name ∧ (i.qubits = [] ∨ i.qubits.length = g.codes.length) ∧
    (policy = .strict → AnglesFit i.name i.params.length)

/-- What is reported of an instruction that is not encodable: the name is looked at first, then the operands, then the
angles. -/
inductive Rejected (policy : Policy) (i : Instruction) : EncodeError → Prop where
  | unknownGate (name : ∀ g : Symbol, g.name ≠ i.name) : Rejected policy i (.unknownGate i.name)
  | qubitCountMismatch {g : Symbol} (name : g.name = i.name) (nonempty : i.qubits ≠ [])
      (count : i.qubits.length ≠ g.codes.length) :
      Rejected policy i (.qubitCountMismatch g i.qubits.length)
  | malformedParameters {g : Symbol} (name : g.name = i.name)
      (operands : i.qubits = [] ∨ i.qubits.length = g.codes.length) (strict : policy = .strict)
      (angles : ¬ AnglesFit i.name i.params.length) :
      Rejected policy i (.malformedParameters g i.params.length)

/-- A run does not stop at the instruction: it is encodable if it has a block at all. -/
def Passes (policy : Policy) (i : Instruction) : Prop :=
  i.hasBlock = true → i.Encodable policy

variable {policy : Policy} {width : Nat} {i : Instruction} {e : EncodeError}

theorem eq_of_name {g g' : Symbol} (h : g.name = i.name) (h' : g'.name = i.name) : g = g' :=
  Option.some.inj ((Symbol.ofName?_eq_some_iff.mpr h).symm.trans (Symbol.ofName?_eq_some_iff.mpr h'))

theorem symbol_of_name {g : Symbol} (h : g.name = i.name) : i.symbol = .ok g :=
  symbol_eq_ok_iff.mpr (Symbol.ofName?_eq_some_iff.mpr h)

theorem Writes.encodable {block : Block} (h : i.Writes policy width block) : i.Encodable policy := by
  obtain ⟨g, hg, hrow, hheader⟩ := h
  have hname : g.name = i.name := Symbol.ofName?_eq_some_iff.mp hg
  refine ⟨g, hname, Symbol.length_of_row hrow, fun hstrict => ?_⟩
  by_contra hangles
  rw [← hname] at hangles
  rw [Symbol.header_eq_error hstrict hangles] at hheader
  cases hheader

/-- An instruction is written in one way. -/
theorem rightUnique_writes (policy : Policy) (width : Nat) : Relator.RightUnique (Writes policy width) := by
  rintro i block block' ⟨g, hg, hrow, hheader⟩ ⟨g', hg', hrow', hheader'⟩
  obtain rfl : g = g' := Option.some.inj (hg.symm.trans hg')
  have hr : block.row = block'.row := Except.ok.inj (hrow.symm.trans hrow')
  have hh : block.header = block'.header := Except.ok.inj (hheader.symm.trans hheader')
  exact Block.ext hh hr

theorem encodable_or_rejected (policy : Policy) (i : Instruction) :
    i.Encodable policy ∨ ∃ e, i.Rejected policy e := by
  by_cases hname : ∃ g : Symbol, g.name = i.name
  · obtain ⟨g, hg⟩ := hname
    by_cases hcount : i.qubits = [] ∨ i.qubits.length = g.codes.length
    · by_cases hangles : policy = .strict → AnglesFit i.name i.params.length
      · exact Or.inl ⟨g, hg, hcount, hangles⟩
      · rw [Classical.not_imp] at hangles
        exact Or.inr ⟨_, .malformedParameters hg hcount hangles.1 hangles.2⟩
    · rw [not_or] at hcount
      exact Or.inr ⟨_, .qubitCountMismatch hg hcount.1 hcount.2⟩
  · exact Or.inr ⟨_, .unknownGate (not_exists.mp hname)⟩

theorem Rejected.not_encodable (h : i.Rejected policy e) : ¬ i.Encodable policy := by
  rintro ⟨g, hg, hcount, hangles⟩
  cases h with
  | unknownGate hname => exact hname g hg
  | qubitCountMismatch hg' hnil hlen =>
    obtain rfl := eq_of_name hg hg'
    exact hcount.elim hnil hlen
  | malformedParameters _ _ hstrict hfit => exact hfit (hangles hstrict)

/-! ### What a run does with it -/

theorem exists_writes (h : i.Encodable policy) (hwidth : ∀ q ∈ i.qubits, q.index.toNat < width) :
    ∃ block, i.Writes policy width block := by
  obtain ⟨g, hg, hcount, hangles⟩ := h
  obtain ⟨row, hrow⟩ := Symbol.exists_row hcount hwidth
  rw [← hg] at hangles
  obtain ⟨header, hheader⟩ := Symbol.exists_header hangles
  exact ⟨⟨header, row⟩, g, Symbol.ofName?_eq_some_iff.mpr hg, hrow, hheader⟩

theorem exists_yields (h : i.Passes policy) (hwidth : ∀ q ∈ i.qubits, q.index.toNat < width) :
    ∃ event block?, i.Yields policy width event block? := by
  cases hb : i.hasBlock with
  | false => exact ⟨_, _, .skipped hb⟩
  | true =>
    obtain ⟨block, g, hg, hrow, hheader⟩ := exists_writes (h hb) hwidth
    exact ⟨_, _, .encoded hb hg hrow hheader⟩

/-- The range of the operands matters only where the angles are looked at, behind them. -/
theorem Rejected.encode_eq_error (h : i.Rejected policy e) (hb : i.hasBlock = true)
    (hwidth : ∀ q ∈ i.qubits, q.index.toNat < width) : (i.encode policy width).result = .error e := by
  rw [result_encode_of_hasBlock hb, Except.bind_eq_error_iff]
  cases h with
  | unknownGate hname =>
    left
    rw [symbol, Symbol.ofName?_eq_none_iff.mpr hname]
  | @qubitCountMismatch g hg hnil hlen =>
    refine Or.inr ⟨g, symbol_of_name hg, ?_⟩
    rw [Symbol.row_eq_error hnil hlen]
    rfl
  | @malformedParameters g hg hcount hstrict hangles =>
    obtain ⟨row, hrow⟩ := Symbol.exists_row hcount hwidth
    rw [← hg] at hangles
    refine Or.inr ⟨g, symbol_of_name hg, Except.bind_eq_error_iff.mpr (Or.inr ⟨row, hrow, ?_⟩)⟩
    rw [Symbol.header_eq_error hstrict hangles]
    rfl

theorem passes_or_rejected (policy : Policy) (i : Instruction) :
    i.Passes policy ∨ i.hasBlock = true ∧ ∃ e, i.Rejected policy e := by
  by_cases hb : i.hasBlock = true
  · rcases encodable_or_rejected policy i with henc | hrej
    · exact Or.inl fun _ => henc
    · exact Or.inr ⟨hb, hrej⟩
  · exact Or.inl fun h => absurd h hb

theorem passes_iff : i.Passes policy ↔ ∀ e, i.hasBlock = true → ¬ i.Rejected policy e := by
  rcases i.passes_or_rejected policy with h | ⟨hb, e, hrej⟩
  · exact ⟨fun _ e hb hrej => hrej.not_encodable (h hb), fun _ => h⟩
  · exact ⟨fun h => absurd (h hb) hrej.not_encodable, fun h => absurd hrej (h e hb)⟩

theorem encode_eq_error_iff (hwidth : ∀ q ∈ i.qubits, q.index.toNat < width) :
    (i.encode policy width).result = .error e ↔ i.hasBlock = true ∧ i.Rejected policy e := by
  constructor
  · intro h
    rcases passes_or_rejected policy i with hpass | ⟨hb, e', hrej⟩
    · obtain ⟨event, block?, hi⟩ := exists_yields hpass hwidth
      rw [hi.encode_eq] at h
      cases h
    · rw [hrej.encode_eq_error hb hwidth] at h
      exact ⟨hb, Except.error.inj h ▸ hrej⟩
  · exact fun ⟨hb, hrej⟩ => hrej.encode_eq_error hb hwidth

end Instruction

/-! ## All instructions -/

/-- The first instruction that cannot be written is reported as `e`; those before it can be written or have no
block. -/
def FirstRejected (policy : Policy) (instructions : List Instruction) (e : EncodeError) : Prop :=
  ∃ before i after, instructions = before ++ i :: after ∧ (∀ j ∈ before, j.Passes policy) ∧
    i.hasBlock = true ∧ i.Rejected policy e

section Lists

variable {policy : Policy} {width : Nat} {i : Instruction} {instructions rest : List Instruction} {e : EncodeError}

theorem not_firstRejected_nil : ¬ FirstRejected policy [] e := by
  rintro ⟨before, i, after, he, -⟩
  simp at he

theorem firstRejected_cons_iff : FirstRejected policy (i :: rest) e ↔
    (i.hasBlock = true ∧ i.Rejected policy e) ∨ (i.Passes policy ∧ FirstRejected policy rest e) := by
  constructor
  · rintro ⟨before, j, after, he, hpass, hj⟩
    cases before with
    | nil =>
      -- the first instruction is the one reported
      obtain ⟨rfl, -⟩ := List.cons_eq_cons.mp he
      exact Or.inl hj
    | cons k before =>
      obtain ⟨rfl, rfl⟩ := List.cons_eq_cons.mp he
      rw [List.forall_mem_cons] at hpass
      exact Or.inr ⟨hpass.1, before, j, after, rfl, hpass.2, hj⟩
  · rintro (hi | ⟨hi, before, j, after, rfl, hpass, hj⟩)
    · exact ⟨[], i, rest, rfl, by simp, hi⟩
    · exact ⟨i :: before, j, after, rfl, List.forall_mem_cons.mpr ⟨hi, hpass⟩, hj⟩

theorem passes_or_firstRejected (policy : Policy) (instructions : List Instruction) :
    (∀ i ∈ instructions, i.Passes policy) ∨ ∃ e, FirstRejected policy instructions e := by
  induction instructions with
  | nil => exact Or.inl (by simp)
  | cons i rest ih =>
    rcases i.passes_or_rejected policy with hi | ⟨hb, e, hrej⟩
    · rcases ih with hrest | ⟨e, hrest⟩
      · exact Or.inl (List.forall_mem_cons.mpr ⟨hi, hrest⟩)
      · exact Or.inr ⟨e, firstRejected_cons_iff.mpr (Or.inr ⟨hi, hrest⟩)⟩
    · exact Or.inr ⟨e, firstRejected_cons_iff.mpr (Or.inl ⟨hb, hrej⟩)⟩

theorem FirstRejected.not_passes (h : FirstRejected policy instructions e) :
    ¬ ∀ i ∈ instructions, i.Passes policy := by
  obtain ⟨before, i, after, rfl, -, hb, hrej⟩ := h
  exact fun hall => hrej.not_encodable (hall i (by simp) hb)

theorem passes_of_not_hasBlock (h : i.hasBlock = false) : i.Passes policy := by
  intro hb
  rw [h] at hb
  cases hb

/-- Instructions without a block may be left out wherever they stand: they stop no run. -/
theorem firstRejected_filter {p : Instruction → Bool} (hp : ∀ i, p i = false → i.hasBlock = false) :
    FirstRejected policy (instructions.filter p) e ↔ FirstRejected policy instructions e := by
  induction instructions with
  | nil => exact Iff.rfl
  | cons i rest ih =>
    cases hi : p i with
    | false =>
      have hb := hp i hi
      rw [List.filter_cons_of_neg (by simp [hi]), ih, firstRejected_cons_iff]
      simp only [hb, Bool.false_eq_true, false_and, false_or, passes_of_not_hasBlock hb, true_and]
    | true => rw [List.filter_cons_of_pos hi, firstRejected_cons_iff, firstRejected_cons_iff, ih]

theorem firstRejected_withoutMeasurements :
    FirstRejected policy (withoutMeasurements instructions) e ↔ FirstRejected policy instructions e :=
  firstRejected_filter fun i hi => by simpa [Instruction.hasBlock] using fun h => absurd h (by simpa using hi)

theorem Instruction.Yields.passes {event : Event} {block? : Option Block} (h : i.Yields policy width event block?) :
    i.Passes policy := by
  cases h with
  | skipped hb => exact passes_of_not_hasBlock hb
  | encoded hb hg hrow hheader => exact fun _ => (Instruction.Yields.writes (.encoded hb hg hrow hheader)).encodable

/-- A run whose rows are wide enough fails with the first instruction that cannot be written. -/
theorem encodeAll_eq_error_iff (hwidth : ∀ i ∈ instructions, ∀ q ∈ i.qubits, q.index.toNat < width) :
    (encodeAll policy width instructions).result = .error e ↔ FirstRejected policy instructions e := by
  induction instructions with
  | nil => simp [encodeAll, not_firstRejected_nil]
  | cons i rest ih =>
    rw [List.forall_mem_cons] at hwidth
    rw [firstRejected_cons_iff, ← Instruction.encode_eq_error_iff hwidth.1, ← ih hwidth.2]
    rcases i.encode_cases policy width with ⟨event, block?, hi⟩ | ⟨e', hi⟩
    · simp [encodeAll_of_ok hi.encode_eq, Except.map_eq_error_iff, hi.encode_eq, hi.passes]
    · -- the run ends here, and what stands behind has no say
      have hrej := (Instruction.encode_eq_error_iff hwidth.1).mp (congrArg Logged.result hi)
      have hstop : ¬ i.Passes policy := fun hpass => hrej.2.not_encodable (hpass hrej.1)
      simp [encodeAll_of_error hi, hi, hstop]

end Lists

/-! ## Circuits -/

namespace Circuit

variable {policy : Policy} {c : Circuit} {s : Script} {e : EncodeError}

/-- The one width of a circuit has a cell for every operand, so no run fails for want of a cell. -/
theorem script_eq_error_iff : c.script policy = .error e ↔ FirstRejected policy c.instructions e := by
  have hwidth : ∀ i ∈ withoutMeasurements c.instructions, ∀ q ∈ i.qubits, q.index.toNat < c.width :=
    fun i hi q hq => lt_rowWidth hi hq
  rw [script_eq, Except.map_eq_error_iff, run, encodeAll_eq_error_iff hwidth, firstRejected_withoutMeasurements]

theorem exists_script_iff : (∃ s, c.script policy = .ok s) ↔ ∀ i ∈ c.instructions, i.Passes policy := by
  constructor
  · rintro ⟨s, hs⟩
    rcases passes_or_firstRejected policy c.instructions with hall | ⟨e, hrej⟩
    · exact hall
    · rw [script_eq_error_iff.mpr hrej] at hs
      cases hs
  · intro hall
    cases hs : c.script policy with
    | ok s => exact ⟨s, rfl⟩
    | error e => exact absurd hall (script_eq_error_iff.mp hs).not_passes

/-- The scripts of a circuit are the blocks of its instructions at its width, in program order. -/
theorem script_eq_ok_iff : c.script policy = .ok s ↔
    s.numQubits = c.numQubits.toNat ∧ List.Forall₂ (Instruction.Writes policy c.width) c.emitted s.blocks := by
  refine ⟨writes_of_script, fun ⟨hn, hw⟩ => ?_⟩
  -- what is written can be written, so there is a script, and its blocks are no others
  have hall : ∀ i ∈ c.emitted, i.Encodable policy := by
    have hboth := hw.imp fun _ _ h => And.intro h.encodable h
    exact ((List.forall₂_and_left _ _).mp hboth).1
  obtain ⟨s', hs'⟩ : ∃ s', c.script policy = .ok s' :=
    exists_script_iff.mpr fun i hi hb => hall i (List.mem_filter.mpr ⟨hi, hb⟩)
  obtain ⟨hn', hw'⟩ := writes_of_script hs'
  have hblocks : s'.blocks = s.blocks := 
    List.right_unique_forall₂' (Instruction.rightUnique_writes policy c.width) hw' hw
  rw [hs', Except.ok.injEq]
  exact Script.ext (hn'.trans hn.symm) hblocks

theorem fileString_eq_error_iff : c.fileString policy = .error e ↔ FirstRejected policy c.instructions e := by
  rw [← script_eq_error_iff]
  exact Except.map_eq_error_iff

theorem exists_fileString_iff :
    (∃ text, c.fileString policy = .ok text) ↔ ∀ i ∈ c.instructions, i.Passes policy := by
  simp only [← exists_script_iff, fileString_eq_ok_iff]
  exact ⟨fun ⟨_, s, hs, _⟩ => ⟨s, hs⟩, fun ⟨s, hs⟩ => ⟨_, s, hs, rfl⟩⟩

/-- **The outcome of writing a file**: there is a text exactly if every instruction with a block is encodable, and
otherwise the first one that is not is reported. Never is an operand said to lie outside of its row. -/
theorem fileString_outcome (policy : Policy) (c : Circuit) :
    ((∃ text, c.fileString policy = .ok text) ↔
      ∀ i ∈ c.instructions, i.name ≠ "measure" → i.name ≠ "barrier" → i.Encodable policy) ∧
    (∀ e, c.fileString policy = .error e ↔ FirstRejected policy c.instructions e) ∧
    ∀ g qubit width, c.fileString policy ≠ .error (.qubitOutOfRange g qubit width) := by
  refine ⟨?_, fun e => fileString_eq_error_iff, fun g qubit width h => ?_⟩
  · simp only [exists_fileString_iff, Instruction.Passes, Instruction.hasBlock_iff, and_imp]
  · obtain ⟨before, i, after, -, -, -, hrej⟩ := fileString_eq_error_iff.mp h
    cases hrej

/-- Both the operands and the angles of the second gate are wrong; the operands are reported. The first gate is never
looked at. -/
example :
    let c : Circuit := { name := "faulty", numQubits := 2, instructions := [
      .ofGate { name := "barrier", params := [1] } [⟨0⟩], .ofGate { name := "ry", params := [1, 2] } [⟨0⟩, ⟨1⟩],
      .ofGate { name := "RY" } []] }
    c.fileString .strict = .error (.qubitCountMismatch .ry 2) :=
  rfl

end Circuit

end GateGrid
