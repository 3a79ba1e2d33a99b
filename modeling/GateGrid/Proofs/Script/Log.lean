import GateGrid.Proofs.Script.Compact
import GateGrid.Proofs.Script.Lenience

/-!
# The log and the text

* `Instruction.Reported width i e`: `e` is what the log says of an instruction that has been gone through.
* `Course.reported`: a run reports the instructions that it goes through and no others, in their order.
* `Course.rows`: a run to the end reports all of them, the gates with the rows of their blocks.
* `Circuit.log_agrees`: the log of a circuit agrees with what becomes of it.
-/

namespace GateGrid

/-! ## Records -/

namespace Event

/-- The row of the record of a gate. -/
def row : Event → List Char
  | .encoded _ row => row
  | _ => []

/-- It is the record of a gate. -/
def isEncoded : Event → Bool
  | .encoded .. => true
  | _ => false

/-- It is of level debug and has this message. -/
def IsDebug (e : Event) (text : String) : Prop :=
  e.level = .debug ∧ e.message = text

/-- The records of other kinds begin with another letter. -/
theorem eq_skipped_of_message {e : Event} {name : String} (h : e.message = s!"Skipping {name}") :
    e = .skipped name := by
  have hhead : e.message.toList.head? = some 'S' := by
    rw [h]
    simp [toString]
  cases e with
  | skipped other =>
    have hchars := congrArg String.toList h
    simp only [message, toString, String.toList_append, List.append_cancel_left_eq] at hchars
    rw [String.toList_inj.mp hchars]
  | started n m width => simp [message, toString] at hhead
  | encoded g row => simp [message] at hhead
  | finished n => simp [message, toString] at hhead

end Event

/-- The log says of a barrier that it is skipped, and of any other instruction which gate and which row it became. -/
def Instruction.Reported (width : Nat) (i : Instruction) (e : Event) : Prop :=
  e.level = .trace ∧
    if i.name = "barrier" then e = .skipped "barrier" ∧ e.message = "Skipping barrier"
    else e.message = "Encoded gate" ∧
      ∃ g row, e = .encoded g row ∧ g.name = i.name ∧ IsRow g.codes i.qubits width row

theorem Instruction.Yields.reported {policy : Policy} {width : Nat} {i : Instruction} {event : Event}
    {block? : Option Block} (h : i.Yields policy width event block?) (hname : i.name ≠ "measure") :
    i.Reported width event := by
  unfold Reported
  cases h with
  | skipped hb =>
    have hbarrier : i.name = "barrier" := (hasBlock_eq_false_iff.mp hb).resolve_right hname
    rw [if_pos hbarrier, hbarrier]
    exact ⟨rfl, rfl, rfl⟩
  | encoded hb hg hrow hheader =>
    rw [if_neg (hasBlock_iff.mp hb).2]
    exact ⟨rfl, rfl, _, _, rfl, Symbol.name_of_ofName? hg, Symbol.isRow_of_row hrow⟩

theorem Instruction.Reported.ne_skipped_measure {width : Nat} {i : Instruction} {e : Event} (h : i.Reported width e) :
    e ≠ .skipped "measure" := by
  rintro rfl
  obtain ⟨-, h⟩ := h
  by_cases hbarrier : i.name = "barrier"
  · rw [if_pos hbarrier] at h
    exact absurd h.1 (by decide)
  · rw [if_neg hbarrier] at h
    exact absurd h.1 (by decide)

/-! ## Runs -/

section Runs

variable {policy : Policy} {width : Nat} {instructions : List Instruction} {events : List Event}

/-- An instruction is reported when all its checks have passed, and the first that cannot be written ends the run. -/
theorem Course.reported {result : Except EncodeError (List Block)}
    (h : Course policy width instructions events result) (hnames : ∀ i ∈ instructions, i.name ≠ "measure") :
    List.Forall₂ (Instruction.Reported width) (instructions.take events.length) events := by
  induction h with
  | done => exact .nil
  | stopped => exact .nil
  | passed first others ih =>
    rw [List.forall_mem_cons] at hnames
    exact .cons (first.reported hnames.1) (ih hnames.2)

/-- A run to the end reports every instruction, and those with a block under the row of the block. -/
theorem Course.rows {blocks : List Block} (h : Course policy width instructions events (.ok blocks)) :
    events.length = instructions.length ∧ events.flatMap Event.row = blocks.flatMap Block.row ∧
      (events.filter Event.isEncoded).length = blocks.length := by
  generalize hresult : (.ok blocks : Except EncodeError (List Block)) = result at h
  induction h generalizing blocks with
  | done =>
    obtain rfl := Except.ok.inj hresult
    exact ⟨rfl, rfl, rfl⟩
  | stopped => cases hresult
  | passed first others ih =>
    obtain ⟨blocks', hothers, rfl⟩ := Except.map_eq_ok_iff.mp hresult.symm
    obtain ⟨hlength, hrows, hcount⟩ := ih hothers.symm
    refine ⟨congrArg Nat.succ hlength, ?_, ?_⟩
    · cases first with
      | skipped => exact hrows
      | encoded => exact congrArg (_ ++ ·) hrows
    · cases first with
      | skipped => exact hcount
      | encoded => exact congrArg Nat.succ hcount

end Runs

/-! ## Circuits -/

namespace Circuit

variable {policy : Policy} {c : Circuit}

theorem name_of_mem_withoutMeasurements {instructions : List Instruction} {i : Instruction}
    (hi : i ∈ withoutMeasurements instructions) : i.name ≠ "measure" :=
  bne_iff_ne.mp (List.mem_filter.mp hi).2

/-- The record at the end of a run, which is made only if nothing has failed. -/
def closing : Except EncodeError (List Block) → List Event
  | .ok blocks => [.finished blocks.length]
  | .error _ => []

theorem skipped_not_mem_closing (name : String) (result : Except EncodeError (List Block)) :
    .skipped name ∉ closing result := by
  cases result <;> simp [closing]

/-- The log around the course of the run. -/
theorem exists_log (policy : Policy) (c : Circuit) :
    ∃ events result, Course policy c.width (withoutMeasurements c.instructions) events result ∧
      c.script policy = result.map (Script.mk c.numQubits.toNat) ∧
      (c.encode policy).log = .entered c.name ::
        (.started (withoutMeasurements c.instructions).length c.numQubits.toNat c.width :: events ++ closing result).map
          .event := by
  obtain ⟨events, hcourse, hevents⟩ := c.exists_course_run policy
  refine ⟨events, _, hcourse, script_eq policy c, ?_⟩
  have hopening : (c.encode policy).log = .entered c.name ::
      .event (.started (withoutMeasurements c.instructions).length c.numQubits.toNat c.width) ::
        (c.run policy >>= fun blocks => do
          Logged.emit (.finished blocks.length)
          return Script.mk c.numQubits.toNat blocks).log := rfl
  rw [hopening]
  cases hresult : (c.run policy).result with
  | ok blocks =>
    rw [Logged.bind_of_ok hresult, hevents, List.map_append, List.map_cons]
    rfl
  | error e =>
    rw [Logged.bind_of_error hresult, hevents, List.map_append, List.map_cons]
    exact congrArg _ (congrArg _ (List.append_nil _).symm)

/-- **The log of a circuit**: in the span of its name stands a record of how much there is to do, then one for each
instruction gone through, in order, none of them for an instruction named `measure`. If the circuit is written, that is
all instructions, their rows make up the compact form, and at the end stands the number of gates reported, which is that
of the blocks. If an instruction cannot be written, the log ends with the one before it. -/
theorem log_agrees (policy : Policy) (c : Circuit) :
    let log := (c.encode policy).log
    let kept := c.instructions.filter fun i => i.name ≠ "measure"
    (∀ e, .event e ∈ log → e.message ≠ "Skipping measure") ∧
      ∃ width opening events closing, c.IsWidth width ∧
        log = .entered c.name :: (opening :: events ++ closing).map .event ∧
        opening.IsDebug
          s!"Encoding {kept.length} instructions over {c.numQubits.toNat} declared qubits, row width {width}" ∧
        List.Forall₂ (Instruction.Reported width) (kept.take events.length) events ∧
        (∀ text, c.fileString policy = .ok text →
          events.length = kept.length ∧ c.compactString policy = .ok (String.ofList (events.flatMap Event.row)) ∧
            ∃ s last, c.script policy = .ok s ∧ s.text = text ∧
              (events.filter Event.isEncoded).length = s.blocks.length ∧
              closing = [last] ∧ last.IsDebug s!"Encoded {s.blocks.length} gate blocks") ∧
        ∀ e, c.fileString policy = .error e → closing = [] ∧ c.StopsAt policy events.length e := by
  intro log kept
  have hkept : withoutMeasurements c.instructions = kept := withoutMeasurements_eq c.instructions
  obtain ⟨events, result, hcourse, hscript, hlog⟩ := c.exists_log policy
  have hreported : List.Forall₂ (Instruction.Reported c.width) (kept.take events.length) events :=
    hkept ▸ hcourse.reported fun i hi => name_of_mem_withoutMeasurements hi
  refine ⟨fun e he hmessage => ?_, c.width, .started kept.length c.numQubits.toNat c.width, events, closing result,
    c.isWidth_width, hkept ▸ hlog, ⟨rfl, rfl⟩, hreported, fun text htext => ?_, fun e he => ?_⟩
  · obtain rfl : e = .skipped "measure" := Event.eq_skipped_of_message hmessage
    have hmem : Event.skipped "measure" ∈ events := by
      rw [show log = _ from hlog] at he
      simpa [skipped_not_mem_closing] using he
    obtain ⟨k, hk, hget⟩ := List.getElem_of_mem hmem
    exact (hreported.get (hk.trans_eq hreported.length_eq.symm) hk).ne_skipped_measure hget
  · obtain ⟨s, hs, hstext⟩ := fileString_eq_ok_iff.mp htext
    obtain ⟨blocks, rfl, rfl⟩ := Except.map_eq_ok_iff.mp (hscript.symm.trans hs)
    obtain ⟨hlength, hrows, hcount⟩ := hcourse.rows
    refine ⟨hkept ▸ hlength, ?_, _, .finished blocks.length, hs, hstext, hcount, rfl, rfl, rfl⟩
    rw [compactString_of_script hs, hrows]
  · obtain rfl := Except.map_eq_error_iff.mp (hscript.symm.trans (Except.map_eq_error_iff.mp he))
    obtain ⟨hbefore, hinstruction⟩ := hcourse.stops
    exact ⟨rfl, he, hinstruction, hbefore⟩

/-- Under the strict policy the log ends before the gate whose angles do not fit, under the lenient one it goes on. -/
theorem log_agrees_cut :
    let c : Circuit := { name := "cut", numQubits := 4, instructions := [
      StandardGate.instruction (.ry 0.5 ⟨1⟩), .measure [⟨3⟩] [], .barrier [⟨2⟩],
      .ofGate { name := "cp", params := [1, 2] } [⟨1⟩, ⟨0⟩]] }
    let kept := c.instructions.filter fun i => i.name ≠ "measure"
    (c.encode .strict).log = [.entered "cut", .event (.started 3 4 3), .event (.encoded .ry ['I', 'U', 'I']),
        .event (.skipped "barrier")] ∧
      (c.encode .lenient).log = [.entered "cut", .event (.started 3 4 3), .event (.encoded .ry ['I', 'U', 'I']),
        .event (.skipped "barrier"), .event (.encoded .cp ['U', 'C', 'I']), .event (.finished 2)] ∧
      (∃ width opening events closing, c.IsWidth width ∧
        (c.encode .strict).log = .entered c.name :: (opening :: events ++ closing).map .event ∧
        List.Forall₂ (Instruction.Reported width) (kept.take events.length) events ∧
        closing = [] ∧ c.StopsAt .strict events.length (.malformedParameters .cp 2)) ∧
      ∃ opening events closing, (c.encode .lenient).log = .entered c.name :: (opening :: events ++ closing).map .event ∧
        events.length = kept.length ∧ c.compactString .lenient = .ok (String.ofList (events.flatMap Event.row)) ∧
        ∃ s last, c.script .lenient = .ok s ∧ (events.filter Event.isEncoded).length = s.blocks.length ∧
          closing = [last] ∧ last.IsDebug s!"Encoded {s.blocks.length} gate blocks" := by
  intro c kept
  refine ⟨rfl, rfl, ?_, ?_⟩
  · obtain ⟨-, width, opening, events, closing, hwidth, hlog, -, hreported, -, hfailed⟩ := log_agrees .strict c
    exact ⟨width, opening, events, closing, hwidth, hlog, hreported, hfailed _ rfl⟩
  · obtain ⟨-, -, opening, events, closing, -, hlog, -, -, hwritten, -⟩ := log_agrees .lenient c
    obtain ⟨hlength, hcompact, s, last, hs, -, hcount, hclosing, hlast⟩ := hwritten _ rfl
    exact ⟨opening, events, closing, hlog, hlength, hcompact, s, last, hs, hcount, hclosing, hlast⟩

end Circuit

end GateGrid
