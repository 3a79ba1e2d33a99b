import GateGrid.Instruction.Json
import GateGrid.Proofs.Circuit.File
import GateGrid.Proofs.Json.Choice

/-!
# Instructions in their direct form read back

The direct form of an instruction keeps all of its operands, also the classical bits of gates and barriers, which a
circuit file loses. Angles are the only part that may come back as another value or not at all.

* `rereadReal`: what comes back of an angle, or the fault. For a NaN and the infinities, written as `null`, it is one.
* `Gate.read_yields`, `Operation.read_yields`: gates with and without angles and labels, and the three forms of an
  operation, in front of any text.
* `Instruction.document_toJson`: the whole text comes back as far as its angles do.
* `Instruction.document_toJson_roundtrip`: instructions whose angles come back as they are come back as they are.
-/

namespace GateGrid

open Json (Reader Value Fault Number Entered)

/-! ### Angles -/

/-- What comes back of an angle, or the fault. -/
def rereadReal (x : Float) : Except Fault Float :=
  Reader.document Json.readReal (Number.real x).text

theorem rereadReal_eq_ok_iff {x y : Float} : rereadReal x = .ok y ↔ rereadReal? x = some y := by
  show _ ↔ (rereadReal x).toOption = some y
  cases rereadReal x with
  | error fault => simp [Except.toOption]
  | ok z => simp [Except.toOption]

/-- A NaN or an infinity is written as `null`, which is no number. -/
theorem rereadReal_not_finite {x : Float} (h : x.isFinite = false) :
    rereadReal x = .error (.wrongType .null "f64") := by
  rw [rereadReal, Number.text_eq_null h]
  exact Reader.Yields.document (Json.Token.read_null.bind fun rest => rfl)

theorem opens_real (x : Float) : Json.Opens (Value.number (.real x)).writeCompact :=
  Value.opens_number (.real x)

theorem real_yields (x : Float) : Json.readReal.Yields (Value.number (.real x)).writeCompact (rereadReal x) :=
  Json.readReal_yields (.real x)

theorem params_yields (params : List Float) :
    (Json.readListOf Json.readReal).Yields (Value.list (params.map fun x => .number (.real x))).writeCompact
      (params.mapM rereadReal) :=
  Json.readListOf_compact real_yields opens_real params

/-! ### Wires -/

theorem Qubit.read_yields (q : Qubit) : Qubit.read.Yields q.toJson.writeCompact (.ok q) :=
  (Json.readNatural32_yields q.index).map

theorem Clbit.read_yields (b : Clbit) : Clbit.read.Yields b.toJson.writeCompact (.ok b) :=
  (Json.readNatural32_yields b.index).map

/-- Wires come back one by one, so a list of them does. -/
theorem wires_yields {α : Type} {wire : Reader α} {write : α → Value}
    (hwire : ∀ a, wire.Yields (write a).writeCompact (.ok a)) (hopens : ∀ a, Json.Opens (write a).writeCompact)
    (wires : List α) : (Json.readListOf wire).Yields (Value.list (wires.map write)).writeCompact (.ok wires) := by
  have hall : wires.mapM (Except.ok : α → Except Fault α) = .ok wires :=
    (mapM_eq_pure fun _ _ => rfl).trans (congrArg Except.ok (List.map_id wires))
  rw [← hall]
  exact Json.readListOf_compact hwire hopens wires

theorem qubits_yields (qubits : List Qubit) :
    (Json.readListOf Qubit.read).Yields (Value.list (qubits.map Qubit.toJson)).writeCompact (.ok qubits) :=
  wires_yields Qubit.read_yields (fun q => Value.opens_number (.integer q.index.toNat)) qubits

theorem clbits_yields (clbits : List Clbit) :
    (Json.readListOf Clbit.read).Yields (Value.list (clbits.map Clbit.toJson)).writeCompact (.ok clbits) :=
  wires_yields Clbit.read_yields (fun b => Value.opens_number (.integer b.index.toNat)) clbits

/-! ### Gates -/

namespace Gate

/-- What comes back of a gate. -/
def reread (g : Gate) : Except Fault Gate := do
  return { g with params := ← g.params.mapM rereadReal }

/-- What is written for each of the fields, with what it makes of a draft: nothing for a field that is left out. -/
def written (g : Gate) : List (List (List Char × (GateDraft → Except Fault GateDraft))) := [
  [(Json.writeText g.name, fun d => .ok { d with name := some g.name })],
  if g.params.isEmpty then [] else
    [((Value.list (g.params.map fun x => .number (.real x))).writeCompact,
      fun d => (g.params.mapM rereadReal).map fun params => { d with params := some params })],
  match g.label with
  | some label => [(Json.writeText label, fun d => .ok { d with label := some (some label) })]
  | none => []]

def entered (g : Gate) : List (Entered GateDraft) :=
  (List.zipWith (fun field texts => texts.map fun w => ⟨field, w.1, w.2⟩) record.fields g.written).flatten

theorem enclosed_toJson (g : Gate) :
    Json.Enclosed '\x7b' '\x7d' (g.entered.map fun m => Json.writeText m.field.name ++ ':' :: ([] ++ m.text))
      g.toJson.writeCompact := by
  have hparts : g.entered.map (fun m => Json.writeText m.field.name ++ ':' :: ([] ++ m.text)) =
      (("name", .text g.name) :: g.paramMembers ++ g.labelMembers).map
        fun m => Json.writeText m.1 ++ ':' :: m.2.writeCompact := by
    obtain ⟨name, params, label⟩ := g
    cases params <;> cases label <;> rfl
  rw [hparts]
  exact Value.enclosed_object _

theorem find?_entered (g : Gate) : ∀ m ∈ g.entered, record.fields.find? (·.name == m.field.name) = some m.field := by
  obtain ⟨name, params, label⟩ := g
  cases params <;> cases label <;> simp [entered, written, record]

theorem entered_yields (g : Gate) : ∀ m ∈ g.entered, ∀ draft, (m.field.read draft).Yields m.text (m.fill draft) := by
  simp only [entered, written, record, List.zipWith_cons_cons, List.zipWith_nil_right, List.flatten_cons,
    List.flatten_nil, List.forall_mem_append]
  refine ⟨?name, ?params, ?label, List.forall_mem_nil _⟩
  case name => exact List.forall_mem_singleton.mpr fun d => (Json.readString_yields g.name).map
  case params =>
    split_ifs
    · exact List.forall_mem_nil _
    · exact List.forall_mem_singleton.mpr fun d => (params_yields g.params).map
  case label =>
    cases g.label with
    | none => exact List.forall_mem_nil _
    | some label => exact List.forall_mem_singleton.mpr fun d => (Json.readStringOrNull_yields label).map

/-- The fields make the gate again: what is left out is the default. -/
theorem conclude_entered (g : Gate) : (g.entered.foldlM Entered.next record.blank).bind record.conclude = g.reread := by
  obtain ⟨name, params, label⟩ := g
  cases params with
  | nil => cases label <;> rfl
  | cons p params =>
    simp only [entered, written, reread]
    cases (p :: params).mapM rereadReal <;> cases label <;> rfl

theorem read_yields (g : Gate) : Gate.read.Yields g.toJson.writeCompact g.reread := by
  rw [← g.conclude_entered]
  exact Json.Record.read_entered Json.blank_nil g.enclosed_toJson g.find?_entered g.entered_yields

end Gate

/-! ### Operations -/

namespace Operation

/-- What comes back of an operation. -/
def reread : Operation → Except Fault Operation
  | .gate g => g.reread.map .gate
  | .measure => .ok .measure
  | .barrier => .ok .barrier

theorem read_yields (operation : Operation) :
    Operation.read.Yields operation.toJson.writeCompact operation.reread := by
  cases operation with
  | gate g =>
    have htext := Value.enclosed_object [("Gate", g.toJson)]
    exact Json.Choice.read_holding rfl Json.blank_nil htext g.read_yields.map
  | measure => exact Json.Choice.read_bare rfl
  | barrier => exact Json.Choice.read_bare rfl

end Operation

/-! ### Instructions -/

namespace Instruction

variable {i : Instruction}

/-- The fields of an instruction with their written texts. -/
def entered (i : Instruction) : List (Entered InstructionDraft) :=
  List.zipWith (fun field written => ⟨field, written.1, written.2⟩) record.fields [
    (i.operation.toJson.writeCompact,
      fun d => i.operation.reread.map fun operation => { d with operation := some operation }),
    ((Value.list (i.qubits.map Qubit.toJson)).writeCompact, fun d => .ok { d with qubits := some i.qubits }),
    ((Value.list (i.clbits.map Clbit.toJson)).writeCompact, fun d => .ok { d with clbits := some i.clbits })]

theorem enclosed_toJson (i : Instruction) :
    Json.Enclosed '\x7b' '\x7d' (i.entered.map fun m => Json.writeText m.field.name ++ ':' :: ([] ++ m.text))
      i.toJson.writeCompact :=
  Value.enclosed_object _

theorem find?_entered (i : Instruction) :
    ∀ m ∈ i.entered, record.fields.find? (·.name == m.field.name) = some m.field := by
  simp [entered, record]

theorem entered_yields (i : Instruction) :
    ∀ m ∈ i.entered, ∀ draft, (m.field.read draft).Yields m.text (m.fill draft) := by
  simp only [entered, record, List.zipWith_cons_cons, List.zipWith_nil_right, List.forall_mem_cons]
  exact ⟨fun d => i.operation.read_yields.map, fun d => (qubits_yields i.qubits).map,
    fun d => (clbits_yields i.clbits).map, List.forall_mem_nil _⟩

/-- **Instructions in the direct form**: the text is read as the instruction with what comes back of its operation, or
as the first fault among the angles. -/
theorem document_toJson (i : Instruction) :
    Reader.document read i.toJson.compact = i.operation.reread.map fun operation => { i with operation } := by
  have hyields := Json.Record.read_entered Json.blank_nil i.enclosed_toJson i.find?_entered i.entered_yields
  rw [← String.toList_ofList (l := i.toJson.writeCompact)] at hyields
  refine hyields.document.trans ?_
  unfold entered
  cases i.operation.reread <;> rfl

theorem reread_of_angles (h : ∀ p ∈ i.params, rereadReal? p = some p) : i.operation.reread = .ok i.operation := by
  cases hi : i.operation with
  | gate g =>
    simp only [params, hi] at h
    have hparams : g.params.mapM rereadReal = .ok g.params :=
      (mapM_eq_pure fun p hp => rereadReal_eq_ok_iff.mpr (h p hp)).trans (congrArg Except.ok (List.map_id _))
    rw [Operation.reread, Gate.reread, hparams]
    rfl
  | measure => rfl
  | barrier => rfl

theorem reread_not_finite {p : Float} (hp : p ∈ i.params) (hfin : p.isFinite = false) :
    ∃ fault, i.operation.reread = .error fault := by
  obtain ⟨g, hi, hpg⟩ := exists_gate_of_mem_params hp
  obtain ⟨fault, hfault⟩ := mapM_eq_error hpg (rereadReal_not_finite hfin)
  refine ⟨fault, ?_⟩
  rw [hi, Operation.reread, Gate.reread, hfault]
  rfl

/-- **Nothing is lost in the direct form**: an instruction of any kind, with any names, labels and operands, comes back
from its compact text as it is when its angles come back as they are, which only finite ones do. A NaN or an infinity
among the angles spoils the text: it is written, but not read. -/
theorem document_toJson_roundtrip (i : Instruction) :
    ((∀ p ∈ i.params, rereadReal? p = some p) → Reader.document read i.toJson.compact = .ok i) ∧
      ((∃ p ∈ i.params, p.isFinite = false) → ∃ fault, Reader.document read i.toJson.compact = .error fault) := by
  rw [document_toJson]
  refine ⟨fun h => ?_, fun ⟨p, hp, hfin⟩ => ?_⟩
  · rw [reread_of_angles h]
    rfl
  · obtain ⟨fault, hfault⟩ := reread_not_finite hp hfin
    exact ⟨fault, by rw [hfault]; rfl⟩

/-- A gate with a classical bit, a negative zero and letters that have to be escaped, and a quotient that is no number
behind an angle that is one. -/
theorem document_toJson_roundtrip_escaped :
    let i : Instruction := ⟨.gate { name := "u\"\n", params := [0.5, -0], label := some "θ" }, [⟨4294967295⟩], [⟨7⟩]⟩
    let broken : Instruction := ⟨.gate { name := "rx", params := [0.5, 0 / 0] }, [⟨0⟩], []⟩
    i.toJson.compact = "\x7b\"kind\":\x7b\"Gate\":\x7b\"name\":\"u\\\"\\n\",\"params\":[0.5,-0.0]," ++
        "\"label\":\"θ\"\x7d\x7d,\"qubits\":[4294967295],\"clbits\":[7]\x7d" ∧
      Reader.document read i.toJson.compact = .ok i ∧
      ∃ fault, Reader.document read broken.toJson.compact = .error fault := by
  intro i broken
  have hhalf : rereadReal? 0.5 = some 0.5 := by decide +kernel
  have hzero : rereadReal? (-0) = some (-0) := by decide +kernel
  refine ⟨by decide +kernel, (document_toJson_roundtrip i).1 ?_,
    (document_toJson_roundtrip broken).2 ⟨0 / 0, by simp [broken, params], by decide +kernel⟩⟩
  exact List.forall_mem_cons.mpr ⟨hhalf, List.forall_mem_singleton.mpr hzero⟩

end Instruction

end GateGrid
