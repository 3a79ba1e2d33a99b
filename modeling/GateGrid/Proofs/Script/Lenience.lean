import GateGrid.Proofs.Script.Encodable
import GateGrid.Script.Compact

/-!
# The two policies compared

* `Symbol.header_lenient_cases`, `Instruction.encode_lenient_cases`: for one instruction the policies agree, or the
  strict one finds a wrong number of angles where the lenient one finds nothing wrong.
* `encodeAll_lenient_cases`: runs agree, or the strict one is over for such a reason before the lenient one.
* `Course.stops`: a run fails at the instruction behind those that it has gone through.
* `Circuit.StopsAt`: the instruction at which writing a circuit fails.
* `Circuit.fileString_lenient`: what this means for the text and the failures of a circuit.
-/

namespace GateGrid

/-! ## One instruction -/

section Step

variable {width : Nat}

theorem Symbol.header_lenient_cases (g : Symbol) (params : List Float) :
    g.header .lenient params = g.header .strict params ∨
      g.header .strict params = .error (.malformedParameters g params.length) ∧
        ∃ header, g.header .lenient params = .ok header := by
  have hlenient : ∃ header, g.header .lenient params = .ok header := exists_header fun h => by cases h
  by_cases hangles : AnglesFit g.name params.length
  · obtain ⟨header, hheader⟩ := hlenient
    have hstrict : ∃ header, g.header .strict params = .ok header := exists_header fun _ => hangles
    obtain ⟨header', hheader'⟩ := hstrict
    -- whenever there is a header, it does not depend on the policy
    exact Or.inl (by rw [hheader, hheader', header_eq_ok hheader, header_eq_ok hheader'])
  · exact Or.inr ⟨header_eq_error rfl hangles, hlenient⟩

theorem Instruction.encode_lenient_cases (i : Instruction) :
    i.encode .lenient width = i.encode .strict width ∨
      (∃ g n, i.encode .strict width = ⟨[], .error (.malformedParameters g n)⟩) ∧
        ∃ event block?, i.Yields .lenient width event block? := by
  cases hb : i.hasBlock with
  | false => exact Or.inl (by rw [encode_of_not_hasBlock hb, encode_of_not_hasBlock hb])
  | true =>
    rw [encode_of_hasBlock hb, encode_of_hasBlock hb]
    -- the name and the operands are looked at before the angles, and without regard to the policy
    cases hs : i.symbol with
    | error e => exact Or.inl rfl
    | ok g =>
      rw [Logged.lift_ok_bind, Logged.lift_ok_bind]
      cases hrow : g.row i.qubits width with
      | error e => exact Or.inl rfl
      | ok row =>
        rcases g.header_lenient_cases i.params with h | ⟨hstrict, header, hlenient⟩
        · exact Or.inl (by rw [h])
        · have hyields := Yields.encoded hb (symbol_eq_ok_iff.mp hs) hrow hlenient
          exact Or.inr ⟨⟨g, i.params.length, by rw [hstrict]; rfl⟩, _, _, hyields⟩

end Step

/-! ## Runs -/

/-- The log tells how far a run has come. -/
theorem encodeAll_lenient_cases (width : Nat) (instructions : List Instruction) :
    encodeAll .lenient width instructions = encodeAll .strict width instructions ∨
      (∃ g n, (encodeAll .strict width instructions).result = .error (.malformedParameters g n)) ∧
        (encodeAll .strict width instructions).log.length < (encodeAll .lenient width instructions).log.length := by
  induction instructions with
  | nil => exact Or.inl rfl
  | cons i rest ih =>
    rcases i.encode_lenient_cases with h | ⟨⟨g, n, hstrict⟩, event, block?, hlenient⟩
    · rcases i.encode_cases .strict width with ⟨event, block?, hi⟩ | ⟨e, hi⟩
      · rw [encodeAll_of_ok hi.encode_eq, encodeAll_of_ok (h.trans hi.encode_eq)]
        rcases ih with hrest | ⟨⟨g, n, hfailure⟩, hlength⟩
        · exact Or.inl (by rw [hrest])
        · exact Or.inr ⟨⟨g, n, Except.map_eq_error_iff.mpr hfailure⟩, Nat.succ_lt_succ hlength⟩
      · exact Or.inl (by rw [encodeAll_of_error hi, encodeAll_of_error (h.trans hi)])
    · rw [encodeAll_of_error hstrict, encodeAll_of_ok hlenient.encode_eq]
      exact Or.inr ⟨⟨g, n, rfl⟩, Nat.succ_pos _⟩

/-- A run fails at the instruction behind those that it has gone through. -/
theorem Course.stops {policy : Policy} {width : Nat} {instructions : List Instruction} {events : List Event}
    {e : EncodeError} (h : Course policy width instructions events (.error e)) :
    (∀ i ∈ instructions.take events.length, ∃ block?, (i.encode policy width).result = .ok block?) ∧
      ∃ i, instructions[events.length]? = some i ∧ (i.encode policy width).result = .error e := by
  generalize hresult : (.error e : Except EncodeError (List Block)) = result at h
  induction h with
  | done => cases hresult
  | @stopped i rest e' failed =>
    obtain rfl := Except.error.inj hresult
    exact ⟨by simp, i, rfl, failed⟩
  | @passed i rest event block? events result first others ih =>
    obtain ⟨hbefore, j, hj, hje⟩ := ih (Except.map_eq_error_iff.mp hresult.symm).symm
    rw [List.length_cons, List.take_succ_cons, List.forall_mem_cons]
    exact ⟨⟨⟨block?, by rw [first.encode_eq]⟩, hbefore⟩, j, by simpa using hj, hje⟩

/-! ## Circuits -/

namespace Circuit

variable {policy : Policy} {c : Circuit} {k : Nat} {e : EncodeError}

/-- Writing the circuit fails with `e` at an instruction, the first `k` of those not named `measure` standing before it,
which can be written. -/
structure StopsAt (policy : Policy) (c : Circuit) (k : Nat) (e : EncodeError) : Prop where
  failure : c.fileString policy = .error e
  instruction : ∃ i, (withoutMeasurements c.instructions)[k]? = some i ∧
    (i.encode policy c.width).result = .error e
  before : ∀ i ∈ (withoutMeasurements c.instructions).take k, ∃ block?, (i.encode policy c.width).result = .ok block?

/-- The number of instructions that a run goes through, each of which it reports. -/
def reached (policy : Policy) (c : Circuit) : Nat :=
  (c.run policy).log.length

theorem fileString_eq_error_iff_run : c.fileString policy = .error e ↔ (c.run policy).result = .error e := by
  rw [fileString, Except.map_eq_error_iff, script_eq, Except.map_eq_error_iff]

theorem stopsAt_of_fileString (h : c.fileString policy = .error e) : c.StopsAt policy (c.reached policy) e := by
  obtain ⟨events, hcourse, hlog⟩ := c.exists_course_run policy
  rw [fileString_eq_error_iff_run.mp h] at hcourse
  have hreached : c.reached policy = events.length := by rw [reached, hlog, List.length_map]
  obtain ⟨hbefore, hinstruction⟩ := hcourse.stops
  rw [hreached]
  exact ⟨h, hinstruction, hbefore⟩

theorem fileString_lenient_ne (c : Circuit) (g : Symbol) (n : Nat) :
    c.fileString .lenient ≠ .error (.malformedParameters g n) := by
  intro h
  obtain ⟨before, i, after, -, -, -, hrej⟩ := fileString_eq_error_iff.mp h
  cases hrej with
  | malformedParameters _ _ hstrict _ => cases hstrict

/-- The runs of a circuit under the two policies. -/
theorem run_lenient_cases (c : Circuit) :
    c.run .lenient = c.run .strict ∨
      (∃ g n, c.fileString .strict = .error (.malformedParameters g n)) ∧ c.reached .strict < c.reached .lenient := by
  rcases encodeAll_lenient_cases c.width (withoutMeasurements c.instructions) with h | ⟨⟨g, n, hfailure⟩, hlength⟩
  · exact Or.inl h
  · exact Or.inr ⟨⟨g, n, fileString_eq_error_iff_run.mpr hfailure⟩, hlength⟩

/-- **Lenience adds texts and changes none**: a text under the strict policy is the text under the lenient one, where
no number of angles is wrong. A failure under the lenient policy is also one of the strict policy, unless that has
stopped before for a wrong number of angles; and behind such a number the lenient policy comes to an end, or it fails at
a later instruction for its name or its operands. -/
theorem fileString_lenient (c : Circuit) :
    (∀ text, c.fileString .strict = .ok text →
      c.fileString .lenient = .ok text ∧ c.compactString .lenient = c.compactString .strict) ∧
    (∀ g n, c.fileString .lenient ≠ .error (.malformedParameters g n) ∧
      c.compactString .lenient ≠ .error (.malformedParameters g n)) ∧
    (∀ e, c.fileString .lenient = .error e → ∃ k, c.StopsAt .lenient k e ∧
      (c.StopsAt .strict k e ∨ ∃ k' < k, ∃ g n, c.StopsAt .strict k' (.malformedParameters g n))) ∧
    (∀ g n, c.fileString .strict = .error (.malformedParameters g n) →
      ∃ k, c.StopsAt .strict k (.malformedParameters g n) ∧
        ((∃ text, c.fileString .lenient = .ok text) ∨
          ∃ k' > k, ∃ e, c.StopsAt .lenient k' e ∧
            ((∃ name, e = .unknownGate name) ∨ ∃ g n, e = .qubitCountMismatch g n))) := by
  have hfile : c.run .lenient = c.run .strict → c.fileString .lenient = c.fileString .strict := by
    intro hsame
    rw [fileString, fileString, script_eq, script_eq, hsame]
  have hnever := c.fileString_lenient_ne
  refine ⟨fun text htext => ?_, fun g n => ⟨hnever g n, fun h => hnever g n (Except.map_eq_error_iff.mp h)⟩,
    fun e he => ?_, fun g n he => ?_⟩
  · rcases c.run_lenient_cases with hsame | ⟨⟨g, n, hfailure⟩, -⟩
    · exact ⟨(hfile hsame).trans htext, by rw [compactString, compactString, hfile hsame]⟩
    · rw [hfailure] at htext
      cases htext
  · refine ⟨_, stopsAt_of_fileString he, ?_⟩
    rcases c.run_lenient_cases with hsame | ⟨⟨g, n, hfailure⟩, hlength⟩
    · rw [hfile hsame] at he
      rw [reached, hsame]
      exact Or.inl (stopsAt_of_fileString he)
    · exact Or.inr ⟨_, hlength, g, n, stopsAt_of_fileString hfailure⟩
  · refine ⟨_, stopsAt_of_fileString he, ?_⟩
    rcases c.run_lenient_cases with hsame | ⟨-, hlength⟩
    · rw [← hfile hsame] at he
      exact absurd he (hnever g n)
    · cases hlenient : c.fileString .lenient with
      | ok text => exact Or.inl ⟨text, rfl⟩
      | error e =>
        refine Or.inr ⟨_, hlength, e, stopsAt_of_fileString hlenient, ?_⟩
        obtain ⟨before, i, after, -, -, -, hrej⟩ := fileString_eq_error_iff.mp hlenient
        cases hrej with
        | unknownGate hname => exact Or.inl ⟨_, rfl⟩
        | qubitCountMismatch hg hne hcount => exact Or.inr ⟨_, _, rfl⟩
        | malformedParameters _ _ hstrict _ => cases hstrict

/-- The strict policy stops at the first gate for its angles, the lenient one at the last for its name. -/
theorem fileString_lenient_later :
    let c : Circuit := { name := "later", numQubits := 2, instructions := [
      .ofGate { name := "cp", params := [1, 2] } [⟨0⟩, ⟨1⟩], .measure [⟨0⟩] [],
      StandardGate.instruction (.h ⟨0⟩), .ofGate { name := "CP" } [⟨0⟩, ⟨1⟩]] }
    c.fileString .strict = .error (.malformedParameters .cp 2) ∧ c.fileString .lenient = .error (.unknownGate "CP") ∧
      (∃ k, c.StopsAt .lenient k (.unknownGate "CP") ∧
        (c.StopsAt .strict k (.unknownGate "CP") ∨
          ∃ k' < k, ∃ g n, c.StopsAt .strict k' (.malformedParameters g n))) ∧
      ∃ k, c.StopsAt .strict k (.malformedParameters .cp 2) ∧
        ((∃ text, c.fileString .lenient = .ok text) ∨
          ∃ k' > k, ∃ e, c.StopsAt .lenient k' e ∧
            ((∃ name, e = .unknownGate name) ∨ ∃ g n, e = .qubitCountMismatch g n)) :=
  ⟨rfl, rfl, (fileString_lenient _).2.2.1 _ rfl, (fileString_lenient _).2.2.2 _ _ rfl⟩

end Circuit

end GateGrid
