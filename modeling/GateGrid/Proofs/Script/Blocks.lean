import Mathlib.Data.List.Forall2
import GateGrid.Proofs.Except
import GateGrid.Proofs.Script.Row
import GateGrid.Script.Encoding

/-!
# The blocks of a script

* `Instruction.Writes policy width i block`: `block` is what a run writes for `i`.
* `Instruction.encode_cases`: an instruction is reported once (`Instruction.Yields`), or it fails without a report.
* `Course policy width instructions events result`: the course of a run, which every run has (`exists_course`).
* `Circuit.emitted`: the instructions that have a block, in program order.
* `Circuit.writes_of_script`: a script has one block for each of them, each written at the one width of the circuit.
* `Symbol.angles`: the rule that both ways to find the angles of a header follow (`Symbol.header_eq_ok`).
* `Instruction.IsBlock`, `Circuit.IsWidth`: the text of a block and the width, said without the encoder.
* `Circuit.fileString_shape`: the whole text of a file.
-/

namespace GateGrid

/-! ## Instructions and their blocks -/

namespace Instruction

/-- The instruction is neither a measurement nor a barrier by its name. -/
def hasBlock (i : Instruction) : Bool :=
  i.name != "measure" && i.name != "barrier"

/-- What is written for an instruction with a block. -/
def Writes (policy : Policy) (width : Nat) (i : Instruction) (block : Block) : Prop :=
  ∃ symbol, Symbol.ofName? i.name = some symbol ∧ symbol.row i.qubits width = .ok block.row ∧
    symbol.header policy i.params = .ok block.header

variable {policy : Policy} {width : Nat} {i : Instruction}

theorem symbol_eq_ok_iff {symbol : Symbol} :
    i.symbol = .ok symbol ↔ Symbol.ofName? i.name = some symbol := by
  unfold Instruction.symbol
  cases Symbol.ofName? i.name <;> simp

theorem hasBlock_iff : i.hasBlock = true ↔ i.name ≠ "measure" ∧ i.name ≠ "barrier" := by
  simp [hasBlock]

theorem hasBlock_eq_false_iff : i.hasBlock = false ↔ i.name = "barrier" ∨ i.name = "measure" := by
  rw [← Bool.not_eq_true, hasBlock_iff, not_and_or, not_ne_iff, not_ne_iff, or_comm]

/-- What an instruction that passes its checks is reported as, and the block that is written for it, if it has one. -/
inductive Yields (policy : Policy) (width : Nat) (i : Instruction) : Event → Option Block → Prop
  | skipped (hb : i.hasBlock = false) : Yields policy width i (.skipped i.name) none
  | encoded {g : Symbol} {row : List Char} {header : Option Header} (hb : i.hasBlock = true)
      (hg : Symbol.ofName? i.name = some g) (hrow : g.row i.qubits width = .ok row)
      (hheader : g.header policy i.params = .ok header) :
      Yields policy width i (.encoded g row) (some ⟨header, row⟩)

theorem encode_of_not_hasBlock (hb : i.hasBlock = false) :
    i.encode policy width = ⟨[.event (.skipped i.name)], .ok none⟩ := by
  rw [encode, if_pos (hasBlock_eq_false_iff.mp hb)]
  rfl

theorem encode_of_hasBlock (hb : i.hasBlock = true) :
    i.encode policy width = (do
      let g ← i.symbol
      let row ← g.row i.qubits width
      let header ← g.header policy i.params
      Logged.emit (.encoded g row)
      return some ⟨header, row⟩) := by
  have hname : ¬ (i.name = "barrier" ∨ i.name = "measure") := by
    rwa [← hasBlock_eq_false_iff, Bool.not_eq_false]
  rw [encode, if_neg hname]

/-- The checks of an instruction with a block, as a result alone. -/
theorem result_encode_of_hasBlock (hb : i.hasBlock = true) :
    (i.encode policy width).result = (do
      let g ← i.symbol
      let row ← g.row i.qubits width
      let header ← g.header policy i.params
      return some ⟨header, row⟩) := by
  simp only [encode_of_hasBlock hb, Logged.result_bind, Logged.result_lift, Logged.result_emit, Logged.result_pure]
  rfl

theorem Yields.encode_eq {event : Event} {block? : Option Block} (h : i.Yields policy width event block?) :
    i.encode policy width = ⟨[.event event], .ok block?⟩ := by
  cases h with
  | skipped hb => exact encode_of_not_hasBlock hb
  | encoded hb hg hrow hheader =>
    rw [encode_of_hasBlock hb, symbol_eq_ok_iff.mpr hg, Logged.lift_ok_bind, hrow, Logged.lift_ok_bind, hheader]
    rfl

theorem Yields.writes {event : Event} {block : Block} (h : i.Yields policy width event (some block)) :
    i.Writes policy width block := by
  cases h with
  | encoded hb hg hrow hheader => exact ⟨_, hg, hrow, hheader⟩

/-- **One instruction** is reported once, when it has passed its checks. If it fails one of them, it is not reported. -/
theorem encode_cases (policy : Policy) (width : Nat) (i : Instruction) :
    (∃ event block?, i.Yields policy width event block?) ∨ ∃ e, i.encode policy width = ⟨[], .error e⟩ := by
  cases hb : i.hasBlock with
  | false => exact Or.inl ⟨_, _, .skipped hb⟩
  | true =>
    rw [encode_of_hasBlock hb]
    cases hs : i.symbol with
    | error e => exact Or.inr ⟨e, rfl⟩
    | ok g =>
      rw [Logged.lift_ok_bind]
      cases hrow : g.row i.qubits width with
      | error e => exact Or.inr ⟨e, rfl⟩
      | ok row =>
        cases hheader : g.header policy i.params with
        | error e => exact Or.inr ⟨e, rfl⟩
        | ok header => exact Or.inl ⟨_, _, .encoded hb (symbol_eq_ok_iff.mp hs) hrow hheader⟩

end Instruction

/-! ## Runs -/

/-- The course of a run over instructions: what those are reported as that it goes through, and how it ends, at the
first that fails or behind the last. -/
inductive Course (policy : Policy) (width : Nat) :
    List Instruction → List Event → Except EncodeError (List Block) → Prop
  | done : Course policy width [] [] (.ok [])
  | stopped {i : Instruction} {rest : List Instruction} {e : EncodeError}
      (failed : (i.encode policy width).result = .error e) : Course policy width (i :: rest) [] (.error e)
  | passed {i : Instruction} {rest : List Instruction} {event : Event} {block? : Option Block} {events : List Event}
      {result : Except EncodeError (List Block)} (first : i.Yields policy width event block?)
      (others : Course policy width rest events result) :
      Course policy width (i :: rest) (event :: events) (result.map (block?.toList ++ ·))

section Runs

variable {policy : Policy} {width : Nat} {i : Instruction} {instructions rest : List Instruction} {events : List Event}
  {blocks : List Block}

theorem encodeAll_of_ok {event : Event} {block? : Option Block}
    (h : i.encode policy width = ⟨[.event event], .ok block?⟩) :
    encodeAll policy width (i :: rest) = ⟨.event event :: (encodeAll policy width rest).log,
      (encodeAll policy width rest).result.map (block?.toList ++ ·)⟩ := by
  rw [encodeAll, h, Logged.bind_of_ok rfl]
  cases hrest : (encodeAll policy width rest).result with
  | ok blocks =>
    rw [Logged.bind_of_ok hrest]
    simp [Except.map, pure]
  | error e =>
    rw [Logged.bind_of_error hrest]
    rfl

theorem encodeAll_of_error {e : EncodeError} (h : i.encode policy width = ⟨[], .error e⟩) :
    encodeAll policy width (i :: rest) = ⟨[], .error e⟩ := by
  rw [encodeAll, h]
  rfl

/-- Every run has a course, and that is what the log says of it. -/
theorem exists_course (policy : Policy) (width : Nat) (instructions : List Instruction) :
    ∃ events, Course policy width instructions events (encodeAll policy width instructions).result ∧
      (encodeAll policy width instructions).log = events.map .event := by
  induction instructions with
  | nil => exact ⟨[], .done, rfl⟩
  | cons i rest ih =>
    rcases i.encode_cases policy width with ⟨event, block?, hi⟩ | ⟨e, hi⟩
    · obtain ⟨events, hcourse, hlog⟩ := ih
      rw [encodeAll_of_ok hi.encode_eq, hlog]
      exact ⟨event :: events, .passed hi hcourse, rfl⟩
    · rw [encodeAll_of_error hi]
      exact ⟨[], .stopped (by rw [hi]), rfl⟩

/-- A run to the end has written a block for each instruction that has one. -/
theorem Course.writes (h : Course policy width instructions events (.ok blocks)) :
    List.Forall₂ (Instruction.Writes policy width) (instructions.filter Instruction.hasBlock) blocks := by
  generalize hresult : (.ok blocks : Except EncodeError (List Block)) = result at h
  induction h generalizing blocks with
  | done =>
    obtain rfl := Except.ok.inj hresult
    exact .nil
  | stopped => cases hresult
  | passed first others ih =>
    obtain ⟨blocks', hothers, rfl⟩ := Except.map_eq_ok_iff.mp hresult.symm
    have hrest := ih hothers.symm
    cases first with
    | skipped hb => rwa [List.filter_cons_of_neg (by simp [hb])]
    | encoded hb hg hrow hheader =>
      rw [List.filter_cons_of_pos hb]
      exact .cons ⟨_, hg, hrow, hheader⟩ hrest

end Runs

namespace Circuit

variable {policy : Policy} {c : Circuit}

/-- The instructions that have a block. -/
def emitted (c : Circuit) : List Instruction :=
  c.instructions.filter Instruction.hasBlock

/-- The one width of all rows. -/
def width (c : Circuit) : Nat :=
  rowWidth (withoutMeasurements c.instructions)

theorem withoutMeasurements_eq (instructions : List Instruction) :
    withoutMeasurements instructions = instructions.filter fun i => i.name ≠ "measure" := by
  refine List.filter_congr fun i _ => ?_
  simp [bne, Bool.beq_eq_decide_eq]

theorem filter_withoutMeasurements (instructions : List Instruction) :
    (withoutMeasurements instructions).filter Instruction.hasBlock =
      instructions.filter Instruction.hasBlock := by
  rw [withoutMeasurements, List.filter_filter]
  refine List.filter_congr fun i _ => ?_
  simp only [Instruction.hasBlock]
  cases i.name != "measure" <;> simp

/-- The run over the instructions that are not measurements. -/
def run (policy : Policy) (c : Circuit) : Logged (List Block) :=
  encodeAll policy c.width (withoutMeasurements c.instructions)

theorem exists_course_run (policy : Policy) (c : Circuit) :
    ∃ events, Course policy c.width (withoutMeasurements c.instructions) events (c.run policy).result ∧
      (c.run policy).log = events.map .event :=
  exists_course policy c.width (withoutMeasurements c.instructions)

/-- Around the run there is nothing that can fail. -/
theorem script_eq (policy : Policy) (c : Circuit) :
    c.script policy = (c.run policy).result.map (Script.mk c.numQubits.toNat) := by
  show (c.encode policy).result = _
  simp only [encode, Logged.result_bind, Logged.result_emit, Logged.result_pure]
  show (c.run policy).result >>= _ = _
  cases (c.run policy).result <;> rfl

theorem writes_of_script {s : Script} (h : c.script policy = .ok s) :
    s.numQubits = c.numQubits.toNat ∧
      List.Forall₂ (Instruction.Writes policy c.width) c.emitted s.blocks := by
  rw [script_eq] at h
  obtain ⟨blocks, hblocks, rfl⟩ := Except.map_eq_ok_iff.mp h
  obtain ⟨events, hcourse, -⟩ := c.exists_course_run policy
  rw [hblocks] at hcourse
  have hwrites := hcourse.writes
  rw [filter_withoutMeasurements] at hwrites
  exact ⟨rfl, hwrites⟩

theorem exists_writes_of_mem {s : Script} (h : c.script policy = .ok s) {b : Block} (hb : b ∈ s.blocks) :
    ∃ i ∈ c.emitted, i.Writes policy c.width b := by
  have hw := (writes_of_script h).2
  obtain ⟨k, hk, rfl⟩ := List.getElem_of_mem hb
  have hk' : k < c.emitted.length := hw.length_eq ▸ hk
  exact ⟨c.emitted[k], List.getElem_mem hk', hw.get hk' hk⟩

/-- All rows of a script have the width of its circuit. -/
theorem length_row_of_script {s : Script} (h : c.script policy = .ok s) : ∀ b ∈ s.blocks, b.row.length = c.width := by
  intro b hb
  obtain ⟨i, -, g, -, hrow, -⟩ := exists_writes_of_mem h hb
  exact (Symbol.isRow_of_row hrow).length

theorem fileString_eq_ok_iff {text : String} :
    c.fileString policy = .ok text ↔ ∃ s, c.script policy = .ok s ∧ s.text = text :=
  Except.map_eq_ok_iff

theorem mem_withoutMeasurements {i : Instruction} (hi : i ∈ c.emitted) :
    i ∈ withoutMeasurements c.instructions := by
  rw [emitted, List.mem_filter, Instruction.hasBlock, Bool.and_eq_true] at hi
  exact List.mem_filter.mpr ⟨hi.1, hi.2.1⟩

end Circuit

/-! ## The text of a file -/

namespace Symbol

theorem name_of_ofName? {name : String} {symbol : Symbol} (h : ofName? name = some symbol) :
    symbol.name = name := by
  simpa using List.find?_some h

theorem hasHeader_iff (symbol : Symbol) :
    symbol.hasHeader = true ↔ symbol.name ∈ ["ry", "u", "cu", "cp"] := by
  cases symbol <;> decide

/-- The angles of a list by one rule: a controlled phase has the first, in the last place, and otherwise they are the
first three. -/
def angles (symbol : Symbol) (params : List Float) : Header :=
  match symbol with
  | .cp => ⟨0, 0, params.headD 0⟩
  | _ => ⟨params.getD 0 0, params.getD 1 0, params.getD 2 0⟩

/-- The shapes that a gate takes follow the rule. -/
theorem angles_of_accepted {symbol : Symbol} {params : List Float} {values : Header}
    (h : symbol.acceptedAngles? params = some values) : values = symbol.angles params := by
  unfold acceptedAngles? at h
  split at h
  case h_7 => cases h
  all_goals exact (Option.some.inj h).symm

/-- So do lists of any length where the shape does not matter: the loop over the places stops at the shorter end. -/
theorem lenientAngles_eq (symbol : Symbol) (params : List Float) :
    symbol.lenientAngles params = symbol.angles params := by
  -- there are three places, so the list counts as far as its third angle
  rcases params with _ | ⟨a, _ | ⟨b, _ | ⟨d, rest⟩⟩⟩ <;> cases symbol <;> rfl

/-- A header stands exactly above the rows of the gates that have one, and whichever way its angles are found, they
follow the rule. -/
theorem header_eq_ok {symbol : Symbol} {policy : Policy} {params : List Float} {header : Option Header}
    (h : symbol.header policy params = .ok header) :
    header = if symbol.hasHeader then some (symbol.angles params) else none := by
  unfold Symbol.header at h
  split at h
  · rename_i hno
    rw [if_neg hno]
    exact (Except.ok.inj h).symm
  · rename_i hhas
    rw [if_pos (not_not.mp hhas)]
    split at h
    · rename_i values haccepted
      rw [← Except.ok.inj h, angles_of_accepted haccepted]
    · cases policy with
      | strict => cases h
      | lenient => rw [← Except.ok.inj h, lenientAngles_eq]

/-- The rule in one line: the list behind the leading zeros of a controlled phase, filled up with zeros. -/
theorem angles_toList (symbol : Symbol) (params : List Float) :
    (symbol.angles params).toList =
      ((if symbol.name = "cp" then [0, 0] else []) ++ params ++ [0, 0, 0]).take 3 := by
  have hfill : ∀ ps : List Float, [ps.getD 0 0, ps.getD 1 0, ps.getD 2 0] = (ps ++ [0, 0, 0]).take 3 := by
    rintro (_ | ⟨a, _ | ⟨b, _ | ⟨d, ps⟩⟩⟩) <;> rfl
  cases symbol with
  | cp => cases params <;> rfl
  | _ => exact hfill params

end Symbol

theorem Script.text_eq (s : Script) :
    s.text = "# " ++ toString s.numQubits ++ "\n" ++ ",\n".intercalate (s.blocks.map Block.text) ++ ":" := rfl

/-- A float in the number style of headers. -/
abbrev display (x : Float) : String :=
  Header.layout.render x

/-- The text of an instruction's block: the line of angles where the gate has one, then the row. -/
def Instruction.IsBlock (width : Nat) (i : Instruction) (block : String) : Prop :=
  ∃ symbol row, Symbol.ofName? i.name = some symbol ∧ IsRow symbol.codes i.qubits width row ∧
    if i.name ∈ ["ry", "u", "cu", "cp"] then
      ∃ a b d, [a, b, d] = ((if i.name = "cp" then [0, 0] else []) ++ i.params ++ [0, 0, 0]).take 3 ∧
        block = "\x7bU " ++ display a ++ " " ++ display b ++ " " ++ display d ++ "\x7d\n" ++ String.ofList row
    else block = String.ofList row

/-- Wire `j` is an operand of an instruction that is not named `measure`. -/
def Circuit.References (c : Circuit) (j : Nat) : Prop :=
  ∃ i ∈ c.instructions, i.name ≠ "measure" ∧ ∃ q ∈ i.qubits, q.index.toNat = j

/-- One more than the highest wire referenced, one if there is none. -/
def Circuit.IsWidth (c : Circuit) (width : Nat) : Prop :=
  IsGreatest {w | ∃ j, c.References j ∧ w = j + 1} width ∨ (∀ j, ¬ c.References j) ∧ width = 1

theorem Circuit.references_iff {c : Circuit} {j : Nat} :
    c.References j ↔ ∃ i ∈ withoutMeasurements c.instructions, ∃ q ∈ i.qubits, q.index.toNat = j := by
  simp only [References, withoutMeasurements, List.mem_filter, bne_iff_ne, and_assoc]

theorem Circuit.isWidth_width (c : Circuit) : c.IsWidth c.width := by
  obtain ⟨hmem, hle⟩ := rowWidth_isGreatest (withoutMeasurements c.instructions)
  by_cases hnone : ∀ j, ¬ c.References j
  · refine Or.inr ⟨hnone, ?_⟩
    rcases hmem with h | ⟨i, hi, q, hq, -⟩
    · exact h
    · exact absurd (references_iff.mpr ⟨i, hi, q, hq, rfl⟩) (hnone _)
  · refine Or.inl ⟨?_, ?_⟩
    · rcases hmem with h | ⟨i, hi, q, hq, h⟩
      · -- the width is one: the wire referenced is the first
        obtain ⟨j, hj⟩ := not_forall_not.mp hnone
        obtain ⟨i, hi, q, hq, rfl⟩ := references_iff.mp hj
        have hlt : q.index.toNat < c.width := lt_rowWidth hi hq
        have hone : c.width = 1 := h
        exact ⟨q.index.toNat, hj, by omega⟩
      · exact ⟨q.index.toNat, references_iff.mpr ⟨i, hi, q, hq, rfl⟩, h⟩
    · rintro w ⟨j, hj, rfl⟩
      obtain ⟨i, hi, q, hq, rfl⟩ := references_iff.mp hj
      exact hle (Or.inr ⟨i, hi, q, hq, rfl⟩)

theorem Instruction.isBlock_of_writes {policy : Policy} {width : Nat} {i : Instruction} {block : Block}
    (h : i.Writes policy width block) : i.IsBlock width block.text := by
  obtain ⟨symbol, hs, hr, hh⟩ := h
  refine ⟨symbol, block.row, hs, Symbol.isRow_of_row hr, ?_⟩
  have hname := Symbol.name_of_ofName? hs
  have hheader := Symbol.header_eq_ok hh
  by_cases hhas : symbol.hasHeader = true
  · rw [if_pos (hname ▸ (Symbol.hasHeader_iff symbol).mp hhas)]
    rw [if_pos hhas] at hheader
    have hangles := Symbol.angles_toList symbol i.params
    rw [hname] at hangles
    refine ⟨_, _, _, hangles, ?_⟩
    simp [Block.text, hheader, Header.text, String.append_assoc]
  · rw [if_neg fun hmem => hhas ((Symbol.hasHeader_iff symbol).mpr (hname ▸ hmem))]
    rw [if_neg hhas] at hheader
    simp only [Block.text, hheader]

/-- **The text of a file**: the declared number of qubits on a line of its own, then one block for each instruction
that is neither a measurement nor a barrier by name, in program order and all of one width, and a colon at the end. -/
theorem Circuit.fileString_shape {policy : Policy} {c : Circuit} {text : String}
    (h : c.fileString policy = .ok text) :
    ∃ width blocks, c.IsWidth width ∧
      List.Forall₂ (Instruction.IsBlock width)
        (c.instructions.filter fun i => i.name ≠ "measure" ∧ i.name ≠ "barrier") blocks ∧
      text = "# " ++ toString c.numQubits.toNat ++ "\n" ++ ",\n".intercalate blocks ++ ":" := by
  obtain ⟨s, hs, rfl⟩ := fileString_eq_ok_iff.mp h
  obtain ⟨hn, hw⟩ := writes_of_script hs
  refine ⟨c.width, s.blocks.map Block.text, c.isWidth_width, ?_, ?_⟩
  · have hemitted : c.emitted =
        c.instructions.filter fun i => i.name ≠ "measure" ∧ i.name ≠ "barrier" := by
      refine List.filter_congr fun i _ => ?_
      simp [Instruction.hasBlock, bne, Bool.beq_eq_decide_eq]
    rw [← hemitted, List.forall₂_map_right_iff]
    exact hw.imp fun _ _ => Instruction.isBlock_of_writes
  · rw [Script.text_eq, hn]

/-- The measured wire does not count towards the width, the one behind the barrier does. -/
theorem Circuit.fileString_shape_mixed :
    let c : Circuit := { name := "mixed", numQubits := 4, numClbits := 1, instructions := [
      StandardGate.instruction (.cx ⟨2⟩ ⟨0⟩), .measure [⟨3⟩] [⟨0⟩], .barrier [⟨1⟩],
      StandardGate.instruction (.ry 0.5 ⟨1⟩)] }
    let text := "# 4\nXIC,\n\x7bU 0.5 0 0\x7d\nIUI:"
    c.fileString .strict = .ok text ∧
      ∃ width blocks, c.IsWidth width ∧
        List.Forall₂ (Instruction.IsBlock width)
          (c.instructions.filter fun i => i.name ≠ "measure" ∧ i.name ≠ "barrier") blocks ∧
        text = "# " ++ toString c.numQubits.toNat ++ "\n" ++ ",\n".intercalate blocks ++ ":" :=
  ⟨rfl, @fileString_shape .strict _ _ rfl⟩

end GateGrid
