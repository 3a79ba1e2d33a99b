import GateGrid.Proofs.Circuit.Reachable
import GateGrid.Proofs.Json.Record

/-!
# Circuit files read back

* `rereadReal?`: what comes back of an angle. `Circuit.stored r c` is the circuit that comes back when every angle `p`
  comes back as `r p`: gates and barriers lose their classical bits, and nothing else changes.
* `Instruction.reentry`: what comes back of an entry, an instruction or the fault that stops the file.
* `Circuit.document_toJson`: a file comes back as far as its entries do.
-/

namespace GateGrid

open Json (Reader Value Record Fault Number)

/-! ### What comes back -/

/-- What the number reader makes of the written form of an angle. -/
def rereadReal? (x : Float) : Option Float :=
  (Reader.document Json.readReal (Number.real x).text).toOption

/-- The instruction that comes back of a file when the angles come back by `r`. -/
def Instruction.stored (r : Float → Float) (i : Instruction) : Instruction :=
  match i.operation with
  | .gate g => ⟨.gate { g with params := g.params.map r }, i.qubits, []⟩
  | .measure => ⟨.measure, i.qubits, i.clbits⟩
  | .barrier => ⟨.barrier, i.qubits, []⟩

namespace Circuit

/-- The angles of all gates. -/
def angles (c : Circuit) : List Float :=
  c.instructions.flatMap Instruction.params

def stored (r : Float → Float) (c : Circuit) : Circuit :=
  { c with instructions := c.instructions.map (Instruction.stored r) }

end Circuit

/-- What comes back of an entry. -/
def Instruction.reentry (i : Instruction) : Except Fault Instruction := do
  match Instruction.ofEntry? (← i.toEntry.reread) with
  | some i => return i
  | none => throw (.noVariant "InstructionEntry")

/-! ### Item by item -/

theorem mapM_eq_pure {m : Type → Type} [Monad m] [LawfulMonad m] {α β : Type} {f : α → m β} {g : α → β} {l : List α}
    (h : ∀ a ∈ l, f a = pure (g a)) : l.mapM f = pure (l.map g) := by
  induction l with
  | nil => rfl
  | cons a l ih =>
    rw [List.mapM_cons, h a List.mem_cons_self, ih fun b hb => h b (List.mem_cons_of_mem _ hb)]
    simp

theorem mapM_cons_eq_ok {α β : Type} {f : α → Except Fault β} {a : α} {l : List α} {values : List β}
    (h : (a :: l).mapM f = .ok values) : ∃ b bs, f a = .ok b ∧ l.mapM f = .ok bs ∧ values = b :: bs := by
  simp only [List.mapM_cons, Except.bind_eq_ok_iff] at h
  obtain ⟨b, hb, bs, hbs, hvalues⟩ := h
  exact ⟨b, bs, hb, hbs, (Except.pure_eq_ok_iff.mp hvalues).symm⟩

/-- One item that fails is enough. -/
theorem mapM_eq_error {α β : Type} {f : α → Except Fault β} {a : α} {l : List α} {fault : Fault} (ha : a ∈ l)
    (h : f a = .error fault) : ∃ fault', l.mapM f = .error fault' := by
  cases hl : l.mapM f with
  | error fault' => exact ⟨fault', rfl⟩
  | ok values =>
    induction l generalizing values with
    | nil => cases ha
    | cons b l ih =>
      obtain ⟨b', bs, hb, hbs, rfl⟩ := mapM_cons_eq_ok hl
      rcases List.mem_cons.mp ha with rfl | ha
      · rw [h] at hb
        cases hb
      · obtain ⟨fault', hfault⟩ := ih ha bs hbs
        cases hfault

theorem length_of_mapM {α β : Type} {f : α → Except Fault β} {l : List α} {values : List β}
    (h : l.mapM f = .ok values) : values.length = l.length := by
  induction l generalizing values with
  | nil =>
    obtain rfl := Except.ok.inj h
    rfl
  | cons a l ih =>
    obtain ⟨b, bs, -, hbs, rfl⟩ := mapM_cons_eq_ok h
    rw [List.length_cons, List.length_cons, ih hbs]

/-- Items that come back as they are. -/
theorem rereadItems_map {α : Type} {write : α → Value} (h : ∀ a, (write a).reread = .ok (write a)) (l : List α) :
    Value.rereadItems (l.map write) = .ok (l.map write) := by
  rw [Value.rereadItems_eq, List.mapM_map]
  exact mapM_eq_pure fun a _ => h a

theorem toList?_map {α : Type} {item : Value → Option α} {write : α → Value} (h : ∀ a, item (write a) = some a)
    (l : List α) : Value.toList? item (.list (l.map write)) = some l := by
  have hitems : (l.map write).mapM item = pure (l.map id) := by
    rw [List.mapM_map]
    exact mapM_eq_pure fun a _ => h a
  rw [Value.toList?, hitems, List.map_id]
  rfl

/-! ### Wires -/

/-- Wires are 32-bit numbers and come back as they are. -/
theorem reread_natural32 (n : UInt32) :
    Value.reread (.number (.integer n.toNat)) = .ok (.number (.integer n.toNat)) := by
  rw [Value.reread]
  exact Number.reread_nat (Nat.lt_trans n.toNat_lt (by decide))

theorem toNatural32?_natural32 (n : UInt32) : Value.toNatural32? (.number (.integer n.toNat)) = some n :=
  Number.toNatural32?_toNat n

theorem toQubits?_qubits (qubits : List Qubit) : Entry.toQubits? (.list (qubits.map Qubit.toJson)) = some qubits :=
  toList?_map (fun q => by rw [Qubit.toJson, toNatural32?_natural32]; rfl) qubits

theorem toClbits?_clbits (clbits : List Clbit) : Entry.toClbits? (.list (clbits.map Clbit.toJson)) = some clbits :=
  toList?_map (fun b => by rw [Clbit.toJson, toNatural32?_natural32]; rfl) clbits

/-! ### Angles -/

/-- Angles that come back are read from numbers. -/
theorem reread_angles {r : Float → Float} {params : List Float} (h : ∀ p ∈ params, rereadReal? p = some (r p)) :
    ∃ values, (params.mapM fun x => (Number.real x).reread) = .ok values ∧
      values.mapM Value.toReal? = some (params.map r) := by
  induction params with
  | nil => exact ⟨[], rfl, rfl⟩
  | cons p params ih =>
    obtain ⟨values, hvalues, hreals⟩ := ih fun q hq => h q (List.mem_cons_of_mem _ hq)
    have hp := h p List.mem_cons_self
    rw [rereadReal?, Number.reread_real] at hp
    obtain ⟨v, hv, hreal⟩ := Option.bind_eq_some_iff.mp hp
    have hreread : (Number.real p).reread = .ok v := by
      cases hr : (Number.real p).reread with
      | error fault =>
        rw [hr] at hv
        cases hv
      | ok w =>
        rw [hr] at hv
        rw [Option.some.inj hv]
    refine ⟨v :: values, ?_, ?_⟩
    · rw [List.mapM_cons, hreread, hvalues]
      rfl
    · rw [List.mapM_cons, hreal, hreals]
      rfl

/-- A NaN or an infinity comes back as `null`, which is no angle. -/
theorem reread_angles_not_finite {params : List Float} {p : Float} (hp : p ∈ params) (hfin : p.isFinite = false)
    {values : List Value} (h : (params.mapM fun x => (Number.real x).reread) = .ok values) :
    values.mapM Value.toReal? = none := by
  induction params generalizing values with
  | nil => cases hp
  | cons q params ih =>
    obtain ⟨v, vs, hv, hvs, rfl⟩ := mapM_cons_eq_ok h
    rw [List.mapM_cons]
    rcases List.mem_cons.mp hp with rfl | hp
    · rw [Number.reread_null hfin] at hv
      rw [← Except.ok.inj hv]
      rfl
    · rw [ih hp hvs]
      cases v.toReal? <;> rfl

/-! ### Entries -/

theorem rereadItems_qubits (qubits : List Qubit) :
    Value.rereadItems (qubits.map Qubit.toJson) = .ok (qubits.map Qubit.toJson) :=
  rereadItems_map (fun q => reread_natural32 q.index) qubits

theorem rereadItems_clbits (clbits : List Clbit) :
    Value.rereadItems (clbits.map Clbit.toJson) = .ok (clbits.map Clbit.toJson) :=
  rereadItems_map (fun b => reread_natural32 b.index) clbits

theorem Instruction.reentry_eq {i : Instruction} {v : Value} (h : i.toEntry.reread = .ok v) :
    i.reentry = match Instruction.ofEntry? v with
      | some j => .ok j
      | none => .error (.noVariant "InstructionEntry") := by
  rw [reentry, h]
  rfl

theorem Instruction.reentry_measure {i : Instruction} (h : i.operation = .measure) :
    i.reentry = .ok ⟨.measure, i.qubits, i.clbits⟩ := by
  have hread : i.toEntry.reread = .ok i.toEntry := by
    simp only [toEntry, h, Value.reread, Value.rereadMembers, rereadItems_qubits, rereadItems_clbits]
    rfl
  have hdecode : Instruction.ofEntry? i.toEntry = some ⟨.measure, i.qubits, i.clbits⟩ := by
    simp [toEntry, h, ofEntry?, Entry.gate?, Entry.measure?, Entry.member?, toQubits?_qubits, toClbits?_clbits, measure]
  rw [reentry_eq hread, hdecode]

theorem Instruction.reentry_barrier {i : Instruction} (h : i.operation = .barrier) :
    i.reentry = .ok ⟨.barrier, i.qubits, []⟩ := by
  have hread : i.toEntry.reread = .ok i.toEntry := by
    simp only [toEntry, h, Value.reread, Value.rereadMembers, rereadItems_qubits]
    rfl
  have hdecode : Instruction.ofEntry? i.toEntry = some ⟨.barrier, i.qubits, []⟩ := by
    simp [toEntry, h, ofEntry?, Entry.gate?, Entry.measure?, Entry.barrier?, Entry.member?, toQubits?_qubits, barrier]
  rw [reentry_eq hread, hdecode]

/-- The entry of a gate, with these values for its angles. -/
def Gate.entry (g : Gate) (qubits : List Qubit) (values : List Value) : Value :=
  .object (("gate", .text g.name) :: ("qubits", .list (qubits.map Qubit.toJson)) ::
    (if g.params.isEmpty then [] else [("params", .list values)]) ++ g.labelMembers)

theorem Gate.reread_entry (g : Gate) (qubits : List Qubit) :
    (g.entry qubits (g.params.map fun x => .number (.real x))).reread =
      (g.params.mapM fun x => (Number.real x).reread).map (g.entry qubits) := by
  have hparams : Value.rereadItems (g.params.map fun x => .number (.real x)) =
      g.params.mapM fun x => (Number.real x).reread := by
    rw [Value.rereadItems_eq, List.mapM_map]
    rfl
  have hlabel : Value.rereadMembers g.labelMembers = .ok g.labelMembers := by
    unfold labelMembers
    cases g.label <;> rfl
  unfold entry
  cases hp : g.params with
  | nil =>
    simp only [List.isEmpty_nil, if_true, List.cons_append, List.nil_append, Value.reread, Value.rereadMembers,
      rereadItems_qubits, hlabel]
    rfl
  | cons p params =>
    rw [hp] at hparams
    simp only [List.isEmpty_cons, Bool.false_eq_true, if_false, List.cons_append, List.nil_append, Value.reread,
      Value.rereadMembers, rereadItems_qubits, hlabel, hparams]
    cases (p :: params).mapM fun x => (Number.real x).reread <;> rfl

theorem Gate.decode_entry (g : Gate) (qubits : List Qubit) {values : List Value} (h : values.length = g.params.length) :
    Instruction.ofEntry? (g.entry qubits values) =
      (values.mapM Value.toReal?).map fun params => ⟨.gate { g with params }, qubits, []⟩ := by
  obtain ⟨name, params, label⟩ := g
  cases params with
  | nil =>
    obtain rfl := List.length_eq_zero_iff.mp h
    cases label <;>
      simp [entry, Instruction.ofEntry?, labelMembers, Entry.gate?, Entry.member?, Entry.memberD, Value.toText?,
        Value.toTextOrNull?, toQubits?_qubits, Instruction.ofGate]
  | cons p params =>
    cases hreal : values.mapM Value.toReal? with
    | none =>
      cases label <;>
        simp [entry, Instruction.ofEntry?, labelMembers, Entry.gate?, Entry.measure?, Entry.barrier?, Entry.member?,
          Entry.memberD, Value.toText?, Value.toList?, hreal]
    | some reals =>
      cases label <;>
        simp [entry, Instruction.ofEntry?, labelMembers, Entry.gate?, Entry.member?, Entry.memberD, Value.toText?,
          Value.toTextOrNull?, Value.toList?, toQubits?_qubits, Instruction.ofGate, hreal]

/-- A gate comes back when all of its angles come back as numbers. -/
theorem Instruction.reentry_gate {i : Instruction} {g : Gate} (h : i.operation = .gate g) :
    i.reentry = (g.params.mapM fun x => (Number.real x).reread) >>= fun values =>
      match values.mapM Value.toReal? with
      | some params => .ok ⟨.gate { g with params }, i.qubits, []⟩
      | none => .error (.noVariant "InstructionEntry") := by
  have hentry : i.toEntry = g.entry i.qubits (g.params.map fun x => .number (.real x)) := by
    simp only [toEntry, h]
    rfl
  have hread := g.reread_entry i.qubits
  rw [← hentry] at hread
  cases hv : g.params.mapM fun x => (Number.real x).reread with
  | error fault =>
    rw [hv] at hread
    rw [reentry, hread]
    rfl
  | ok values =>
    rw [hv] at hread
    rw [reentry_eq hread, Gate.decode_entry g i.qubits (length_of_mapM hv)]
    show _ = match values.mapM Value.toReal? with | some params => _ | none => _
    cases values.mapM Value.toReal? <;> rfl

theorem Instruction.reentry_of_angles {r : Float → Float} {i : Instruction}
    (h : ∀ p ∈ i.params, rereadReal? p = some (r p)) : i.reentry = .ok (i.stored r) := by
  cases hi : i.operation with
  | gate g =>
    simp only [params, hi] at h
    obtain ⟨values, hvalues, hreals⟩ := reread_angles h
    rw [reentry_gate hi, hvalues, stored, hi]
    show (match values.mapM Value.toReal? with | some params => _ | none => _) = _
    rw [hreals]
  | measure => rw [reentry_measure hi, stored, hi]
  | barrier => rw [reentry_barrier hi, stored, hi]

/-- Only gates have angles. -/
theorem Instruction.exists_gate_of_mem_params {i : Instruction} {p : Float} (h : p ∈ i.params) :
    ∃ g, i.operation = .gate g ∧ p ∈ g.params := by
  unfold params at h
  cases hi : i.operation with
  | gate g =>
    rw [hi] at h
    exact ⟨g, rfl, h⟩
  | measure | barrier =>
    rw [hi] at h
    cases h

theorem Instruction.reentry_not_finite {i : Instruction} {p : Float} (hp : p ∈ i.params) (hfin : p.isFinite = false) :
    ∃ fault, i.reentry = .error fault := by
  obtain ⟨g, hi, hpg⟩ := exists_gate_of_mem_params hp
  rw [reentry_gate hi]
  cases hv : g.params.mapM fun x => (Number.real x).reread with
  | error fault => exact ⟨fault, rfl⟩
  | ok values =>
    refine ⟨.noVariant "InstructionEntry", ?_⟩
    show (match values.mapM Value.toReal? with | some params => _ | none => _) = _
    rw [reread_angles_not_finite hpg hfin hv]

/-! ### Files -/

/-- An entry is an object of scalars and of lists of numbers. -/
theorem Instruction.within_toEntry (room : Nat) (i : Instruction) : i.toEntry.Within (room + 2) := by
  have hqubits : (Value.list (i.qubits.map Qubit.toJson)).Within (room + 1) :=
    Value.within_map (fun q => Value.within_number room _) i.qubits
  have hclbits : (Value.list (i.clbits.map Clbit.toJson)).Within (room + 1) :=
    Value.within_map (fun b => Value.within_number room _) i.clbits
  unfold toEntry
  cases i.operation with
  | gate g =>
    refine Value.within_object ?_
    simp only [List.forall_mem_append, List.forall_mem_cons]
    refine ⟨⟨Value.within_text _ _, hqubits, ?_⟩, ?_⟩
    · unfold Gate.paramMembers
      split_ifs
      · simp
      · simpa using Value.within_map (fun x => Value.within_number room (.real x)) g.params
    · unfold Gate.labelMembers
      cases g.label with
      | none => simp
      | some label => simpa using Value.within_text (room + 1) label
  | measure =>
    refine Value.within_object ?_
    simp only [List.forall_mem_cons]
    exact ⟨hqubits, hclbits, by simp⟩
  | barrier =>
    refine Value.within_object ?_
    simp only [List.forall_mem_cons]
    exact ⟨hqubits, by simp⟩

/-- What comes back of an instruction fits where the instruction does. -/
theorem Instruction.Fits.stored {n m : UInt32} {i : Instruction} (h : i.Fits n m) (r : Float → Float) :
    (i.stored r).Fits n m := by
  unfold Instruction.stored
  cases hi : i.operation with
  | gate g => exact ⟨h.qubits_lt, h.qubits_nodup, nofun, nofun⟩
  | measure => exact ⟨h.qubits_lt, h.qubits_nodup, h.clbits_lt, fun _ => h.counts (by rw [isMeasure, hi])⟩
  | barrier => exact ⟨h.qubits_lt, h.qubits_nodup, nofun, nofun⟩

theorem Instruction.stored_id {i : Instruction} (h : i.isMeasure = false → i.clbits = []) : i.stored id = i := by
  obtain ⟨operation, qubits, clbits⟩ := i
  cases operation with
  | gate g =>
    obtain rfl := h rfl
    rw [stored]
    simp
  | measure => rfl
  | barrier =>
    obtain rfl := h rfl
    rfl

namespace Circuit

theorem readEntry_yields (level : Nat) (i : Instruction) :
    readEntry.Yields (i.toEntry.writePretty level) i.reentry := by
  intro w rest hw hrest
  have hread := Value.read_writePretty level (i.within_toEntry 123) w rest hw hrest
  refine (Reader.bind_map hread).trans ?_
  rw [Instruction.reentry]
  cases i.toEntry.reread with
  | error fault => rfl
  | ok v =>
    show (match Instruction.ofEntry? v with | some i => _ | none => _ : Reader Instruction) rest =
      Except.map _ (match Instruction.ofEntry? v with | some i => _ | none => _)
    cases Instruction.ofEntry? v <;> rfl

/-- The fields of a file with their written texts. -/
def entered (c : Circuit) : List (Json.Entered CircuitDraft) :=
  List.zipWith (fun field written => ⟨field, written.1, written.2⟩) record.fields [
    (Json.writeText c.name, fun d => .ok { d with name := some c.name }),
    ((Number.integer c.numQubits.toNat).text.toList, fun d => .ok { d with numQubits := some c.numQubits }),
    ((Number.integer c.numClbits.toNat).text.toList, fun d => .ok { d with numClbits := some c.numClbits }),
    ((Value.list (c.instructions.map (·.toEntry))).writePretty 1,
      fun d => (c.instructions.mapM Instruction.reentry).map fun l => { d with instructions := some l })]

theorem toValue_writePretty (c : Circuit) :
    c.toValue.writePretty 0 = Value.bracketed '\x7b' '\x7d' 0 (c.entered.map Json.Entered.member) :=
  rfl

theorem instructions_yields (level : Nat) (instructions : List Instruction) :
    (Json.readListOf readEntry).Yields ((Value.list (instructions.map (·.toEntry))).writePretty level)
      (instructions.mapM Instruction.reentry) := by
  rw [Value.writePretty, Value.writePrettyItems_eq, List.map_map]
  exact Json.readListOf_yields (Value.enclosed_bracketed _ _ level _) (fun i _ => readEntry_yields (level + 1) i)
    fun i _ => Value.opens_writePretty (level + 1) i.toEntry

/-- A file is read as the record of its fields, or the first fault among its entries. -/
theorem document_toJson (c : Circuit) :
    Reader.document record.read c.toJson =
      (c.instructions.mapM Instruction.reentry).map fun instructions => { c with instructions } := by
  have hfind : ∀ m ∈ c.entered, record.fields.find? (·.name == m.field.name) = some m.field := by
    simp only [entered, record, List.zipWith_cons_cons, List.zipWith_nil_right, List.forall_mem_cons]
    exact ⟨rfl, rfl, rfl, rfl, by simp⟩
  have hread : ∀ m ∈ c.entered, ∀ draft, (m.field.read draft).Yields m.text (m.fill draft) := by
    simp only [entered, record, List.zipWith_cons_cons, List.zipWith_nil_right, List.forall_mem_cons]
    exact ⟨fun d => (Json.readString_yields c.name).map, fun d => (Json.readNatural32_yields c.numQubits).map,
      fun d => (Json.readNatural32_yields c.numClbits).map, fun d => (instructions_yields 1 c.instructions).map,
      by simp⟩
  have htext : Json.Enclosed '\x7b' '\x7d' (c.entered.map Json.Entered.member) c.toJson.toList := by
    rw [toJson, Value.pretty, String.toList_ofList, toValue_writePretty]
    exact Value.enclosed_bracketed _ _ 0 _
  have hyields := Record.read_entered Json.blank_space htext hfind hread
  rw [hyields.document]
  unfold entered
  cases c.instructions.mapM Instruction.reentry <;> rfl

/-- **Circuit files**: a reachable circuit comes back from its file with every angle as the number reader makes it of
its written form, and without the classical bits of gates and barriers. A NaN or an infinity spoils the file. Only these
two things are ever lost: a circuit without such bits whose angles come back as they are comes back as it is. -/
theorem ofJson_toJson {c : Circuit} (h : c.Reachable) :
    (∀ r : Float → Float, (∀ p ∈ c.angles, rereadReal? p = some (r p)) → ofJson c.toJson = .ok (c.stored r)) ∧
      ((∃ p ∈ c.angles, p.isFinite = false) → ∃ fault, ofJson c.toJson = .error (.malformedText fault)) ∧
      ((∀ p ∈ c.angles, rereadReal? p = some p) →
        (∀ i ∈ c.instructions, i.isMeasure = false → i.clbits = []) → ofJson c.toJson = .ok c) := by
  have hstored : ∀ r : Float → Float, (∀ p ∈ c.angles, rereadReal? p = some (r p)) →
      ofJson c.toJson = .ok (c.stored r) := by
    intro r hr
    have hentries : c.instructions.mapM Instruction.reentry = .ok (c.instructions.map (Instruction.stored r)) :=
      mapM_eq_pure fun i hi => Instruction.reentry_of_angles fun p hp => hr p (List.mem_flatMap.mpr ⟨i, hi, hp⟩)
    rw [ofJson, document_toJson, hentries]
    refine applyAll_eq_ok_iff.mpr ⟨fun i hi => ?_, rfl⟩
    obtain ⟨j, hj, rfl⟩ := List.mem_map.mp hi
    exact (h.valid j hj).stored r
  refine ⟨hstored, ?_, ?_⟩
  · rintro ⟨p, hp, hfin⟩
    obtain ⟨i, hi, hpi⟩ := List.mem_flatMap.mp hp
    obtain ⟨fault, hfault⟩ := Instruction.reentry_not_finite hpi hfin
    obtain ⟨fault', hentries⟩ := mapM_eq_error hi hfault
    exact ⟨fault', by rw [ofJson, document_toJson, hentries]; rfl⟩
  · intro hangles hbits
    have hsame : c.instructions.map (Instruction.stored id) = c.instructions :=
      (List.map_congr_left fun i hi => Instruction.stored_id (hbits i hi)).trans (List.map_id _)
    rw [hstored id hangles, stored, hsame]

/-- A gate with a classical bit, a quotient that is no number, and a circuit that loses nothing. -/
theorem ofJson_toJson_labelled :
    let c := ({ name := "\"é\"\n", numQubits := 1, numClbits := 1 } : Circuit).after
      (.apply ⟨.gate { name := "ry", params := [0.5], label := some "θ" }, [⟨0⟩], [⟨0⟩]⟩)
    let broken := c.after (.standard (.rx (0 / 0) ⟨0⟩))
    let plain := ({ name := "plain", numQubits := 1 } : Circuit).after (.standard (.ry 0.5 ⟨0⟩))
    ofJson c.toJson = .ok (c.stored id) ∧ (∃ fault, ofJson broken.toJson = .error (.malformedText fault)) ∧
      ofJson plain.toJson = .ok plain := by
  intro c broken plain
  have hc : c.Reachable := .call _ (.sized "\"é\"\n" 1 1) trivial
  have hbroken : broken.Reachable := .call _ hc trivial
  have hplain : plain.Reachable := .call _ (.sized "plain" 1 0) trivial
  have hhalf : rereadReal? 0.5 = some 0.5 := by decide +kernel
  have hangles : c.angles = [0.5] := by with_unfolding_all rfl
  have hbroken' : broken.angles = [0.5, 0 / 0] := by with_unfolding_all rfl
  have hplain' : plain.instructions = [StandardGate.instruction (.ry 0.5 ⟨0⟩)] := by with_unfolding_all rfl
  refine ⟨(ofJson_toJson hc).1 id ?_, (ofJson_toJson hbroken).2.1 ⟨0 / 0, ?_, by decide +kernel⟩,
    (ofJson_toJson hplain).2.2 ?_ ?_⟩
  · rw [hangles]
    simpa using hhalf
  · rw [hbroken']
    simp
  · rw [angles, hplain']
    simpa [StandardGate.instruction, Instruction.ofGate, Instruction.params] using hhalf
  · rw [hplain']
    simp [StandardGate.instruction, Instruction.ofGate]

end Circuit

end GateGrid
