import GateGrid.Proofs.Circuit.Loading

/-!
# What the entries of a file are

* `IsEntry lit i`: the literal is an entry for the instruction. An object is the first of gate, measurement and barrier
  that it has everything for, whatever else it has; nothing else is an entry.
* `Instruction.ofLiteral?_iff_isEntry`: an entry decodes to the instruction that it is for.
* `Entry.SameMembers.isEntry`: only the members under seven keys count, and not their order.
* `Circuit.ofJson_eq_of_isFile`: a file with an entry that decodes to nothing fails for that reason. Every field is read
  as it would be by `Circuit.readEntryOr`, which finds an instruction in any entry (`Circuit.record_stricter`).
* `Circuit.ofJson_entries`: a file loads the instructions of its entries, or fails because one of them is none.
-/

namespace GateGrid

open Json (Literal Reader Record Value)
open Json.Reader (Stricter)

/-! ## Entries -/

/-- A list, and its items read as the items of `l`. -/
def IsListOf {α : Type} (reads : Literal → α → Prop) (lit : Literal) (l : List α) : Prop :=
  ∃ items, lit = .list items ∧ List.Forall₂ reads items l

/-- A number, whatever its spelling, and the double that it stands for. -/
def IsAngle (lit : Literal) (x : Float) : Prop :=
  ∃ m number, lit = .numeral m ∧ m.value? = some number ∧ number.toFloat = x

namespace Entry

/-- The members of an object make a gate on these qubits. Angles and label may be missing. -/
structure IsGate (members : List (String × Literal)) (g : Gate) (qubits : List Qubit) : Prop where
  name : Once (fun lit s => lit = .text s) (under members "gate") g.name
  qubits : Once (IsListOf fun item q => item.IsNatural32 q.index) (under members "qubits") qubits
  params : OnceOr [] (IsListOf IsAngle) (under members "params") g.params
  label : OnceOr none (fun lit label => lit = label.elim .null .text) (under members "label") g.label

/-- The members of an object make a measurement. -/
structure IsMeasure (members : List (String × Literal)) (qubits : List Qubit) (clbits : List Clbit) : Prop where
  qubits : Once (IsListOf fun item q => item.IsNatural32 q.index) (under members "measure") qubits
  clbits : Once (IsListOf fun item c => item.IsNatural32 c.index) (under members "clbits") clbits

/-- The members of an object make a barrier. -/
def IsBarrier (members : List (String × Literal)) (qubits : List Qubit) : Prop :=
  Once (IsListOf fun item q => item.IsNatural32 q.index) (under members "barrier") qubits

/-- The keys that count. -/
def keys : List String :=
  ["gate", "qubits", "params", "label", "measure", "clbits", "barrier"]

end Entry

/-- The literal is an entry for the instruction: an object that is a gate, else a measurement, else a barrier. -/
inductive IsEntry : Literal → Instruction → Prop
  | gate {members : List (String × Literal)} {g : Gate} {qubits : List Qubit} (h : Entry.IsGate members g qubits) :
      IsEntry (.object members) (.ofGate g qubits)
  | measure {members : List (String × Literal)} {qubits : List Qubit} {clbits : List Clbit}
      (hgate : ¬ ∃ g qubits, Entry.IsGate members g qubits) (h : Entry.IsMeasure members qubits clbits) :
      IsEntry (.object members) (.measure qubits clbits)
  | barrier {members : List (String × Literal)} {qubits : List Qubit}
      (hgate : ¬ ∃ g qubits, Entry.IsGate members g qubits)
      (hmeasure : ¬ ∃ qubits clbits, Entry.IsMeasure members qubits clbits) (h : Entry.IsBarrier members qubits) :
      IsEntry (.object members) (.barrier qubits)

theorem IsEntry.exists_members {lit : Literal} {i : Instruction} (h : IsEntry lit i) :
    ∃ members, lit = .object members := by
  cases h <;> exact ⟨_, rfl⟩

/-! ## Values of literals -/

section Values

variable {α β γ : Type} {decode : Value → Option α} {reads : Literal → α → Prop}

/-- What the value of a literal decodes to is what the literal reads as. -/
def DecodesAs (decode : Value → Option α) (reads : Literal → α → Prop) : Prop :=
  ∀ lit a, lit.value?.bind decode = some a ↔ reads lit a

theorem decodesAs_text : DecodesAs Value.toText? fun lit s => lit = .text s := by
  intro lit s
  cases lit <;> simp [Literal.value?, Option.bind_map, Function.comp_def, Value.toText?]

theorem decodesAs_textOrNull : DecodesAs Value.toTextOrNull? fun lit label => lit = label.elim .null .text := by
  intro lit label
  cases lit <;> cases label <;>
    simp [Literal.value?, Option.bind_map, Function.comp_def, Value.toTextOrNull?, Value.toText?]

theorem decodesAs_natural32 : DecodesAs Value.toNatural32? Literal.IsNatural32 := by
  intro lit n
  rw [← Literal.natural32?_eq_some_iff]
  cases lit <;> simp [Literal.value?, Option.bind_map, Function.comp_def, Value.toNatural32?, Literal.natural32?]

theorem decodesAs_angle : DecodesAs Value.toReal? IsAngle := by
  intro lit x
  cases lit <;>
    simp [IsAngle, Literal.value?, Option.bind_map, Function.comp_def, Value.toReal?, Option.bind_eq_some_iff]

/-- A number is the index of a wire. -/
theorem DecodesAs.wire {ω : Type} {decode : Value → Option UInt32} {reads : Literal → UInt32 → Prop}
    (h : DecodesAs decode reads) (wire : UInt32 → ω) (index : ω → UInt32) (hwire : ∀ n w, wire n = w ↔ n = index w) :
    DecodesAs (fun v => (decode v).map wire) fun lit w => reads lit (index w) := by
  intro lit w
  show _ ↔ reads lit (index w)
  rw [← h lit]
  cases lit.value? <;> simp [hwire]

theorem mapM_bind_mapM (f : α → Option β) (g : β → Option γ) (items : List α) :
    (items.mapM f).bind (·.mapM g) = items.mapM fun item => (f item).bind g := by
  induction items with
  | nil => rfl
  | cons item items ih =>
    rw [List.mapM_cons, List.mapM_cons, ← ih]
    cases f item <;> cases items.mapM f <;> simp

theorem DecodesAs.list (h : DecodesAs decode reads) : DecodesAs (Value.toList? decode) (IsListOf reads) := by
  intro lit l
  cases lit with
  | list items =>
    have hitems : (Literal.list items).value?.bind (Value.toList? decode) =
        items.mapM fun item => item.value?.bind decode := by
      rw [Literal.value?, Literal.itemValues?_eq, Option.bind_map, ← mapM_bind_mapM]
      rfl
    rw [hitems, mapM_eq_some_iff]
    simp only [h _ _, IsListOf, Literal.list.injEq, exists_eq_left']
  | _ => simp [IsListOf, Literal.value?, Option.bind_map, Function.comp_def, Value.toList?]

/-- The values under a key are those of the literals under it. -/
theorem forall₂_under {members : List (String × Literal)} {values : List (String × Value)}
    (h : Literal.memberValues? members = some values) (key : String) :
    List.Forall₂ (fun lit m => lit.value? = some m.2) (under members key) (values.filter (·.1 == key)) := by
  induction members generalizing values with
  | nil =>
    obtain rfl := Option.some.inj h
    exact .nil
  | cons m members ih =>
    obtain ⟨name, lit⟩ := m
    simp only [Literal.memberValues?, Option.bind_eq_bind, Option.bind_eq_some_iff, Option.pure_def,
      Option.some.injEq] at h
    obtain ⟨v, hv, rest, hrest, rfl⟩ := h
    rw [under_cons]
    split_ifs with hname
    · rw [List.filter_cons_of_pos (by simpa using hname)]
      exact .cons hv (ih hrest)
    · rw [List.filter_cons_of_neg (by simpa using hname)]
      exact ih hrest

theorem Entry.member?_eq_some_iff (hreads : DecodesAs decode reads) {members : List (String × Literal)}
    {values : List (String × Value)} (h : Literal.memberValues? members = some values) {key : String} {a : α} :
    Entry.member? values key decode = some a ↔ Once reads (under members key) a := by
  have hunder := forall₂_under h key
  rw [Entry.member?]
  generalize under members key = literals at hunder ⊢
  generalize values.filter (·.1 == key) = found at hunder ⊢
  cases hunder with
  | nil => simp [Once]
  | cons hv hrest =>
    cases hrest with
    | nil => simp [Once, ← hreads _ _, hv]
    | cons => simp [Once]

theorem Entry.memberD_eq_some_iff (hreads : DecodesAs decode reads) {members : List (String × Literal)}
    {values : List (String × Value)} (h : Literal.memberValues? members = some values) {key : String} {default a : α} :
    Entry.memberD values key decode default = some a ↔ OnceOr default reads (under members key) a := by
  have hunder := forall₂_under h key
  rw [Entry.memberD]
  generalize under members key = literals at hunder ⊢
  generalize values.filter (·.1 == key) = found at hunder ⊢
  cases hunder with
  | nil => simp [OnceOr, Once, eq_comm]
  | cons hv hrest =>
    cases hrest with
    | nil => simp [OnceOr, Once, ← hreads _ _, hv]
    | cons => simp [OnceOr, Once]

end Values

/-! ## What an object is -/

section Objects

variable {members : List (String × Literal)} {values : List (String × Value)} {i : Instruction}

theorem decodesAs_qubits : DecodesAs Entry.toQubits? (IsListOf fun item q => item.IsNatural32 q.index) :=
  (decodesAs_natural32.wire Qubit.mk Qubit.index fun n q => by cases q; simp).list

theorem decodesAs_clbits : DecodesAs Entry.toClbits? (IsListOf fun item c => item.IsNatural32 c.index) :=
  (decodesAs_natural32.wire Clbit.mk Clbit.index fun n c => by cases c; simp).list

theorem Entry.gate?_eq_some_iff (h : Literal.memberValues? members = some values) :
    Entry.gate? values = some i ↔ ∃ g qubits, Entry.IsGate members g qubits ∧ .ofGate g qubits = i := by
  simp only [Entry.gate?, Option.bind_eq_bind, Option.bind_eq_some_iff, Option.pure_def, Option.some.injEq,
    Entry.member?_eq_some_iff decodesAs_text h, Entry.member?_eq_some_iff decodesAs_qubits h,
    Entry.memberD_eq_some_iff decodesAs_angle.list h, Entry.memberD_eq_some_iff decodesAs_textOrNull h]
  constructor
  · rintro ⟨name, hname, qubits, hqubits, params, hparams, label, hlabel, rfl⟩
    exact ⟨⟨name, params, label⟩, qubits, ⟨hname, hqubits, hparams, hlabel⟩, rfl⟩
  · rintro ⟨g, qubits, hg, rfl⟩
    exact ⟨g.name, hg.name, qubits, hg.qubits, g.params, hg.params, g.label, hg.label, rfl⟩

theorem Entry.gate?_eq_none_iff (h : Literal.memberValues? members = some values) :
    Entry.gate? values = none ↔ ¬ ∃ g qubits, Entry.IsGate members g qubits := by
  rw [Option.eq_none_iff_forall_ne_some]
  constructor
  · rintro hnone ⟨g, qubits, hg⟩
    exact hnone _ ((Entry.gate?_eq_some_iff h).mpr ⟨g, qubits, hg, rfl⟩)
  · intro hno i hi
    obtain ⟨g, qubits, hg, -⟩ := (Entry.gate?_eq_some_iff h).mp hi
    exact hno ⟨g, qubits, hg⟩

theorem Entry.measure?_eq_some_iff (h : Literal.memberValues? members = some values) :
    Entry.measure? values = some i ↔
      ∃ qubits clbits, Entry.IsMeasure members qubits clbits ∧ .measure qubits clbits = i := by
  simp only [Entry.measure?, Option.bind_eq_bind, Option.bind_eq_some_iff, Option.pure_def, Option.some.injEq,
    Entry.member?_eq_some_iff decodesAs_qubits h, Entry.member?_eq_some_iff decodesAs_clbits h]
  constructor
  · rintro ⟨qubits, hqubits, clbits, hclbits, rfl⟩
    exact ⟨qubits, clbits, ⟨hqubits, hclbits⟩, rfl⟩
  · rintro ⟨qubits, clbits, hm, rfl⟩
    exact ⟨qubits, hm.qubits, clbits, hm.clbits, rfl⟩

theorem Entry.measure?_eq_none_iff (h : Literal.memberValues? members = some values) :
    Entry.measure? values = none ↔ ¬ ∃ qubits clbits, Entry.IsMeasure members qubits clbits := by
  rw [Option.eq_none_iff_forall_ne_some]
  constructor
  · rintro hnone ⟨qubits, clbits, hm⟩
    exact hnone _ ((Entry.measure?_eq_some_iff h).mpr ⟨qubits, clbits, hm, rfl⟩)
  · intro hno i hi
    obtain ⟨qubits, clbits, hm, -⟩ := (Entry.measure?_eq_some_iff h).mp hi
    exact hno ⟨qubits, clbits, hm⟩

theorem Entry.barrier?_eq_some_iff (h : Literal.memberValues? members = some values) :
    Entry.barrier? values = some i ↔ ∃ qubits, Entry.IsBarrier members qubits ∧ .barrier qubits = i := by
  simp only [Entry.barrier?, Entry.IsBarrier, Option.bind_eq_bind, Option.bind_eq_some_iff, Option.pure_def,
    Option.some.injEq, Entry.member?_eq_some_iff decodesAs_qubits h]

/-- **Objects**: the three ways to read one are tried in their order. -/
theorem Instruction.ofEntry?_object (h : Literal.memberValues? members = some values) :
    Instruction.ofEntry? (.object values) = some i ↔ IsEntry (.object members) i := by
  rw [Instruction.ofEntry?, Option.orElse_eq_some, Option.orElse_eq_some, Entry.gate?_eq_none_iff h,
    Entry.measure?_eq_none_iff h, Entry.gate?_eq_some_iff h, Entry.measure?_eq_some_iff h, Entry.barrier?_eq_some_iff h]
  constructor
  · rintro (⟨g, qubits, hg, rfl⟩ | ⟨hgate, ⟨qubits, clbits, hm, rfl⟩ | ⟨hmeasure, qubits, hb, rfl⟩⟩)
    · exact .gate hg
    · exact .measure hgate hm
    · exact .barrier hgate hmeasure hb
  · intro hentry
    cases hentry with
    | gate hg => exact Or.inl ⟨_, _, hg, rfl⟩
    | measure hgate hm => exact Or.inr ⟨hgate, Or.inl ⟨_, _, hm, rfl⟩⟩
    | barrier hgate hmeasure hb => exact Or.inr ⟨hgate, Or.inr ⟨hmeasure, _, hb, rfl⟩⟩

/-- **Entries**: what the decoder makes of a literal whose numbers are in range. -/
theorem Instruction.ofLiteral?_iff_isEntry {entry : Literal} (hrange : entry.value?.isSome = true) :
    Instruction.ofLiteral? entry = some i ↔ IsEntry entry i := by
  obtain ⟨v, hv⟩ := Option.isSome_iff_exists.mp hrange
  cases entry with
  | object members =>
    obtain ⟨values, hvalues, rfl⟩ := Option.map_eq_some_iff.mp hv
    rw [Instruction.ofLiteral?, hv]
    exact ofEntry?_object hvalues
  | _ =>
    refine iff_of_false ?_ fun hentry => ?_
    · simp [Instruction.ofLiteral?, Literal.value?, Option.bind_map, Function.comp_def, Instruction.ofEntry?]
    · cases hentry

end Objects

/-! ## Order -/

theorem once_perm {α : Type} {reads : Literal → α → Prop} {literals literals' : List Literal} {a : α}
    (h : literals.Perm literals') : Once reads literals a ↔ Once reads literals' a := by
  have hone : ∀ lit, literals = [lit] ↔ literals' = [lit] := by
    intro lit
    rw [← List.perm_singleton, ← List.perm_singleton]
    exact h.congr_left [lit]
  simp only [Once, hone]

theorem onceOr_perm {α : Type} {default : α} {reads : Literal → α → Prop} {literals literals' : List Literal} {a : α}
    (h : literals.Perm literals') : OnceOr default reads literals a ↔ OnceOr default reads literals' a := by
  have hnil : literals = [] ↔ literals' = [] := ⟨fun hl => (hl ▸ h).nil_eq.symm, fun hl => (hl ▸ h).eq_nil⟩
  rw [OnceOr, OnceOr, once_perm h, hnil]

/-- The same members stand under the keys that count, in any order. -/
def Entry.SameMembers (members members' : List (String × Literal)) : Prop :=
  (members.filter (·.1 ∈ Entry.keys)).Perm (members'.filter (·.1 ∈ Entry.keys))

namespace Entry.SameMembers

variable {members members' : List (String × Literal)}

theorem symm (h : SameMembers members members') : SameMembers members' members :=
  List.Perm.symm h

/-- The members under a key that counts are among the members that count. -/
theorem perm_under (h : SameMembers members members') {key : String} (hkey : key ∈ keys) :
    (under members key).Perm (under members' key) := by
  have hunder : ∀ members, under members key =
      ((members.filter (·.1 ∈ keys)).filter (·.1 == key)).map Prod.snd := by
    intro members
    rw [under, List.filter_filter]
    congr 1
    refine List.filter_congr fun m _ => ?_
    by_cases hm : m.1 = key
    · simp [hm, hkey]
    · simp [hm]
  rw [hunder, hunder]
  exact (List.Perm.filter _ h).map _

theorem isGate (h : SameMembers members members') {g : Gate} {qubits : List Qubit} (hg : IsGate members g qubits) :
    IsGate members' g qubits where
  name := (once_perm (h.perm_under (by decide))).mp hg.name
  qubits := (once_perm (h.perm_under (by decide))).mp hg.qubits
  params := (onceOr_perm (h.perm_under (by decide))).mp hg.params
  label := (onceOr_perm (h.perm_under (by decide))).mp hg.label

theorem isMeasure (h : SameMembers members members') {qubits : List Qubit} {clbits : List Clbit}
    (hm : IsMeasure members qubits clbits) : IsMeasure members' qubits clbits where
  qubits := (once_perm (h.perm_under (by decide))).mp hm.qubits
  clbits := (once_perm (h.perm_under (by decide))).mp hm.clbits

/-- **Order**: members under other keys do not count, and the order of those that do does not either. -/
theorem isEntry (h : SameMembers members members') {i : Instruction} (hentry : IsEntry (.object members) i) :
    IsEntry (.object members') i := by
  have hgate : (¬ ∃ g qubits, IsGate members g qubits) → ¬ ∃ g qubits, IsGate members' g qubits :=
    fun hno ⟨g, qubits, hg⟩ => hno ⟨g, qubits, h.symm.isGate hg⟩
  have hmeasure : (¬ ∃ qubits clbits, IsMeasure members qubits clbits) →
      ¬ ∃ qubits clbits, IsMeasure members' qubits clbits :=
    fun hno ⟨qubits, clbits, hm⟩ => hno ⟨qubits, clbits, h.symm.isMeasure hm⟩
  cases hentry with
  | gate hg => exact .gate (h.isGate hg)
  | measure hno hm => exact .measure (hgate hno) (h.isMeasure hm)
  | barrier hno hno' hb => exact .barrier (hgate hno) (hmeasure hno') ((once_perm (h.perm_under (by decide))).mp hb)

end Entry.SameMembers

/-- Two objects with the same members that count. -/
def SameEntry (lit lit' : Literal) : Prop :=
  ∃ members members', lit = .object members ∧ lit' = .object members' ∧ Entry.SameMembers members members'

theorem mapM_ofLiteral?_same {entries entries' : List Literal}
    (hrange : ∀ entry ∈ entries, entry.value?.isSome = true)
    (hrange' : ∀ entry ∈ entries', entry.value?.isSome = true) (h : List.Forall₂ SameEntry entries entries') :
    entries'.mapM Instruction.ofLiteral? = entries.mapM Instruction.ofLiteral? := by
  induction h with
  | nil => rfl
  | @cons entry entry' rest rest' hsame _ ih =>
    rw [List.forall_mem_cons] at hrange hrange'
    have hentry : Instruction.ofLiteral? entry' = Instruction.ofLiteral? entry := by
      obtain ⟨members, members', rfl, rfl, hmembers⟩ := hsame
      ext i
      rw [Instruction.ofLiteral?_iff_isEntry hrange.1, Instruction.ofLiteral?_iff_isEntry hrange'.1]
      exact ⟨hmembers.symm.isEntry, hmembers.isEntry⟩
    rw [List.mapM_cons, List.mapM_cons, hentry, ih hrange.2 hrange'.2]

/-! ## Files -/

theorem onceOr_unique {α : Type} {default : α} {reads : Literal → α → Prop} {literals : List Literal} {a b : α}
    (hreads : ∀ lit, reads lit a → reads lit b → a = b) (ha : OnceOr default reads literals a)
    (hb : OnceOr default reads literals b) : a = b := by
  rcases ha with ⟨rfl, rfl⟩ | ⟨lit, rfl, ha⟩
  · rcases hb with ⟨-, rfl⟩ | ⟨lit, hone, -⟩
    · rfl
    · cases hone
  · rcases hb with ⟨hnil, -⟩ | ⟨lit', hone, hb⟩
    · cases hnil
    · obtain rfl := List.singleton_inj.mp hone
      exact hreads lit ha hb

/-- A file has one list of entries. -/
theorem IsFile.entries_unique {name name' : String} {n n' m m' : UInt32} {entries entries' : List Literal}
    {lit : Literal} (h : IsFile name n m entries lit) (h' : IsFile name' n' m' entries' lit) : entries = entries' := by
  cases h with
  | object _ _ _ hentries =>
    cases h' with
    | object _ _ _ hentries' =>
      exact onceOr_unique (fun lit hl hl' => Literal.list.inj (hl.symm.trans hl')) hentries hentries'
  | twoItems | threeItems | fourItems =>
    cases h'
    rfl

namespace Circuit

/-- Reads an entry, and gives this instruction where the entry is for none. -/
def readEntryOr (fallback : Instruction) : Reader Instruction := do
  return (Instruction.ofEntry? (← Value.read (Json.nestingLimit - 2))).getD fallback

theorem readEntry_stricter (fallback : Instruction) :
    Stricter (.noVariant "InstructionEntry") readEntry (readEntryOr fallback) := by
  refine .of_same fun v text => ?_
  cases Instruction.ofEntry? v with
  | some i => exact Or.inl rfl
  | none => exact Or.inr rfl

theorem readEntryOr_decodes (fallback : Instruction) :
    (readEntryOr fallback).Decodes (Literal.read (Json.nestingLimit - 2)) fun lit =>
      lit.value?.map fun v => (Instruction.ofEntry? v).getD fallback :=
  (Json.Value.read_decodes _).map

/-- A file is as strict as the reader for its entries. -/
theorem record_stricter {entry : Reader Instruction} {fault : Json.Fault} (h : Stricter fault readEntry entry) :
    Stricter fault record.read (recordOf entry).read := by
  refine Record.read_stricter (fun field => ?_) (fun field => ?_) ?_
  · unfold withEntry
    split_ifs <;> rfl
  · unfold withEntry
    split_ifs <;> rfl
  · simp only [record, List.forall_mem_cons]
    exact ⟨fun d => .refl _, fun d => .refl _, fun d => .refl _, fun d => (Json.readListOf_stricter h).andThen _,
      by simp⟩

section Text

variable {keeps : String → Bool} {text : String} {lit : Literal} {name : String} {n m : UInt32} {entries : List Literal}

/-- With the reader that finds an instruction in any entry, the file is read. -/
theorem document_readEntryOr (fallback : Instruction) (hkeeps : ∀ field ∈ record.fields, keeps field.name = true)
    (h : Reader.document (Literal.readOutline keeps (Json.nestingLimit - 1)) text = .ok lit)
    (hfile : IsFile name n m entries lit) (hrange : ∀ entry ∈ entries, entry.value?.isSome = true) :
    ∃ file, Reader.document (recordOf (readEntryOr fallback)).read text = .ok file := by
  let file : Circuit :=
    { name, numQubits := n, numClbits := m,
      instructions := entries.map fun entry => (Instruction.ofLiteral? entry).getD fallback }
  have hdecoded : List.Forall₂
      (fun entry i => (entry.value?.map fun v => (Instruction.ofEntry? v).getD fallback) = some i) entries
      file.instructions := by
    rw [List.forall₂_map_right_iff, List.forall₂_same]
    intro entry hentry
    obtain ⟨v, hv⟩ := Option.isSome_iff_exists.mp (hrange entry hentry)
    rw [Instruction.ofLiteral?, hv]
    rfl
  have hread := document_recordOf (readEntryOr_decodes fallback) hkeeps h
  rw [ofLiteral?_eq_some_iff.mpr (show ∃ entries, _ from ⟨entries, hfile, hdecoded⟩)] at hread
  exact ⟨file, Reader.toOption_eq_some.mp hread⟩

/-- The file loads what its entries decode to. Where one of them decodes to nothing this is the fault, since nothing
else is wrong with the file. -/
theorem ofJson_eq_of_isFile (hkeeps : ∀ field ∈ record.fields, keeps field.name = true)
    (h : Reader.document (Literal.readOutline keeps (Json.nestingLimit - 1)) text = .ok lit)
    (hfile : IsFile name n m entries lit) (hrange : ∀ entry ∈ entries, entry.value?.isSome = true) :
    ofJson text = match entries.mapM Instruction.ofLiteral? with
      | some instructions => applyAll { name, numQubits := n, numClbits := m } instructions
      | none => .error (.malformedText (.noVariant "InstructionEntry")) := by
  cases hdecoded : entries.mapM Instruction.ofLiteral? with
  | some instructions =>
    let file : Circuit := { name, numQubits := n, numClbits := m, instructions }
    have hstands : file.StandsIn lit := ⟨entries, hfile, mapM_eq_some_iff.mp hdecoded⟩
    exact ofJson_of_standsIn hkeeps h hstands
  | none =>
    obtain ⟨file, hlenient⟩ := document_readEntryOr (.barrier []) hkeeps h hfile hrange
    rcases (record_stricter (readEntry_stricter (.barrier []))).document text with heq | hfault
    · -- the file has been read, so there is an instruction for every entry
      have hread := Reader.toOption_eq_some.mpr (heq.trans hlenient)
      obtain ⟨entries', hfile', hall⟩ := (document_record hkeeps h).mp hread
      obtain rfl := hfile.entries_unique hfile'
      rw [mapM_eq_some_iff.mpr hall] at hdecoded
      cases hdecoded
    · rw [ofJson, hfault]

/-- **What the entries of a file are.** In a file that has nothing else wrong with it, each object is the first of gate,
measurement and barrier that it has everything for, and these instructions are loaded. An entry that is none of them
makes the file fail, and so does one that is no object. Members under other keys do not count, nor does the order of
the members. -/
theorem ofJson_entries (hkeeps : ∀ field ∈ record.fields, keeps field.name = true)
    (h : Reader.document (Literal.readOutline keeps (Json.nestingLimit - 1)) text = .ok lit)
    (hfile : IsFile name n m entries lit) (hrange : ∀ entry ∈ entries, entry.value?.isSome = true) :
    (∀ instructions, List.Forall₂ IsEntry entries instructions →
      ofJson text = applyAll { name, numQubits := n, numClbits := m } instructions) ∧
    (∀ entry ∈ entries, (¬ ∃ i, IsEntry entry i) →
      ofJson text = .error (.malformedText (.noVariant "InstructionEntry"))) ∧
    (∀ entry ∈ entries, (∀ members, entry ≠ .object members) →
      ofJson text = .error (.malformedText (.noVariant "InstructionEntry"))) ∧
    (∀ entry ∈ entries, ∀ i j, IsEntry entry i → IsEntry entry j → i = j) ∧
    ∀ (text' : String) (lit' : Literal) (entries' : List Literal),
      Reader.document (Literal.readOutline keeps (Json.nestingLimit - 1)) text' = .ok lit' →
      IsFile name n m entries' lit' → (∀ entry ∈ entries', entry.value?.isSome = true) →
      List.Forall₂ SameEntry entries entries' → ofJson text' = ofJson text := by
  have hentry : ∀ entry ∈ entries, ∀ i, Instruction.ofLiteral? entry = some i ↔ IsEntry entry i :=
    fun entry hmem i => Instruction.ofLiteral?_iff_isEntry (hrange entry hmem)
  have hload := ofJson_eq_of_isFile hkeeps h hfile hrange
  have hfails : ∀ entry ∈ entries, (¬ ∃ i, IsEntry entry i) →
      ofJson text = .error (.malformedText (.noVariant "InstructionEntry")) := by
    intro entry hmem hno
    cases hdecoded : entries.mapM Instruction.ofLiteral? with
    | none => rw [hload, hdecoded]
    | some instructions =>
      have hall := mapM_eq_some_iff.mp hdecoded
      obtain ⟨k, hk, rfl⟩ := List.getElem_of_mem hmem
      have hi := hall.get hk (hall.length_eq ▸ hk)
      exact absurd ⟨_, (hentry _ hmem _).mp hi⟩ hno
  refine ⟨fun instructions hall => ?_, hfails, fun entry hmem hno => ?_, fun entry hmem i j hi hj => ?_, ?_⟩
  · have hdecoded : entries.mapM Instruction.ofLiteral? = some instructions := by
      have hboth := (List.forall₂_and_left _ _).mpr ⟨hentry, hall⟩
      exact mapM_eq_some_iff.mpr (hboth.imp fun entry i hi => (hi.1 i).mpr hi.2)
    rw [hload, hdecoded]
  · refine hfails entry hmem fun ⟨i, hi⟩ => ?_
    obtain ⟨members, rfl⟩ := hi.exists_members
    exact hno members rfl
  · rw [← hentry entry hmem] at hi hj
    exact Option.some.inj (hi.symm.trans hj)
  · intro text' lit' entries' h' hfile' hrange' hsame
    rw [hload, ofJson_eq_of_isFile hkeeps h' hfile' hrange', mapM_ofLiteral?_same hrange hrange' hsame]

end Text

/-- A gate with its key twice is a barrier, a wire number with a sign makes no wire, and a list is no entry. -/
theorem ofJson_entries_texts :
    ofJson ("\x7b\"instructions\":[\x7b\"gate\":\"h\",\"gate\":\"x\",\"qubits\":[0],\"barrier\":[0]\x7d]," ++
        "\"num_qubits\":1\x7d") = .ok { name := "", numQubits := 1, instructions := [.barrier [⟨0⟩]] } ∧
    ofJson "\x7b\"instructions\":[\x7b\"barrier\":[-0]\x7d],\"num_qubits\":1\x7d" =
      .error (.malformedText (.noVariant "InstructionEntry")) ∧
    ofJson "\x7b\"instructions\":[[0]],\"num_qubits\":1\x7d" =
      .error (.malformedText (.noVariant "InstructionEntry")) := by
  have hbarrier : List.Forall₂ IsEntry
      [.object [("gate", .text "h"), ("gate", .text "x"), ("qubits", .list [digit '0']),
        ("barrier", .list [digit '0'])]] [.barrier [⟨0⟩]] :=
    .cons ((Instruction.ofLiteral?_iff_isEntry rfl).mp rfl) .nil
  refine ⟨?_, ?_, ?_⟩
  · exact (ofJson_entries isField_name (Reader.toOption_eq_some.mp (by decide +kernel)) (isFile_oneQubit _)
      (by decide)).1 _ hbarrier
  · refine (ofJson_entries isField_name (Reader.toOption_eq_some.mp (by decide +kernel)) (isFile_oneQubit
      [.object [("barrier", .list [.numeral ⟨true, ['0'], none, none⟩])]]) (by decide)).2.1 _ List.mem_cons_self ?_
    rintro ⟨i, hi⟩
    cases (Instruction.ofLiteral?_iff_isEntry rfl).mpr hi
  · exact (ofJson_entries isField_name (Reader.toOption_eq_some.mp (by decide +kernel)) (isFile_oneQubit
      [.list [digit '0']]) (by decide)).2.2.1 _ List.mem_cons_self nofun

end Circuit

end GateGrid
