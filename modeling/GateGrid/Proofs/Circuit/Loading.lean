import GateGrid.Circuit.File
import GateGrid.Proofs.Circuit.Fits
import GateGrid.Proofs.Json.Outline
import GateGrid.Proofs.Json.Stricter

/-!
# Which texts are circuits

* `IsFile name n m entries lit`: the literal is a circuit file that says this, an object or a list.
* `Circuit.StandsIn c lit`: such a file with an entry for each instruction of the circuit.
* `Circuit.recordOf entry`: the record of a file with the reader `entry` for its entries. `Circuit.record` is that of
  `Circuit.readEntry`, and nothing about the other fields depends on the reader.
* `Circuit.enter_eq`: a member of an object goes to the field of its name.
* `Circuit.foldlM_enter_eq_some`: the members of an object fill a draft if they set every field at most once.
* `Circuit.ofLiteral?_eq_some_iff`: the record of a literal is the file that stands there.
* `Circuit.ofJson_outcome`: a text is the circuit that stands there or the error of its first instruction that does not
  fit, and malformed only if none stands there.
-/

namespace GateGrid

open Json (Literal Reader Record Slot)

/-! ## Files -/

/-- What stands under a key. -/
def under (members : List (String × Literal)) (key : String) : List Literal :=
  (members.filter (·.1 == key)).map Prod.snd

theorem under_cons (key : String) (lit : Literal) (members : List (String × Literal)) (name : String) :
    under ((key, lit) :: members) name = if key = name then lit :: under members name else under members name := by
  unfold under
  by_cases h : key = name <;> simp [h]

/-- There is one literal, and it reads as `a`. -/
def Once {α : Type} (reads : Literal → α → Prop) (literals : List Literal) (a : α) : Prop :=
  ∃ lit, literals = [lit] ∧ reads lit a

/-- There is one literal and it reads as `a`, or there is none and `a` is the default. -/
def OnceOr {α : Type} (default : α) (reads : Literal → α → Prop) (literals : List Literal) (a : α) : Prop :=
  literals = [] ∧ a = default ∨ Once reads literals a

/-- The literal of a circuit file: an object with the four fields in any order, next to other members that do not count,
or a list of the fields in their order, the last of which may be missing. -/
inductive IsFile : String → UInt32 → UInt32 → List Literal → Literal → Prop
  | object {name : String} {n m : UInt32} {entries : List Literal} {members : List (String × Literal)}
      (hname : OnceOr "" (fun lit s => lit = .text s) (under members "name") name)
      (hqubits : Once Literal.IsNatural32 (under members "num_qubits") n)
      (hclbits : OnceOr 0 Literal.IsNatural32 (under members "num_clbits") m)
      (hentries : OnceOr [] (fun lit l => lit = .list l) (under members "instructions") entries) :
      IsFile name n m entries (.object members)
  | twoItems {name : String} {n : UInt32} {qubits : Literal} (hqubits : qubits.IsNatural32 n) :
      IsFile name n 0 [] (.list [.text name, qubits])
  | threeItems {name : String} {n m : UInt32} {qubits clbits : Literal} (hqubits : qubits.IsNatural32 n)
      (hclbits : clbits.IsNatural32 m) : IsFile name n m [] (.list [.text name, qubits, clbits])
  | fourItems {name : String} {n m : UInt32} {qubits clbits : Literal} {entries : List Literal}
      (hqubits : qubits.IsNatural32 n) (hclbits : clbits.IsNatural32 m) :
      IsFile name n m entries (.list [.text name, qubits, clbits, .list entries])

/-- A list of partial results is there as a whole if each of them is. -/
theorem mapM_eq_some_iff {α β : Type} {f : α → Option β} {items : List α} {results : List β} :
    items.mapM f = some results ↔ List.Forall₂ (fun a b => f a = some b) items results := by
  induction items generalizing results with
  | nil => simp [eq_comm]
  | cons a items ih =>
    cases results with
    | nil =>
      rw [List.mapM_cons]
      cases f a <;> cases items.mapM f <;> simp
    | cons b results =>
      rw [List.mapM_cons, List.forall₂_cons, ← ih]
      cases f a <;> cases items.mapM f <;> simp

/-- The instruction that an entry stands for, unless one of its numbers is out of range. -/
def Instruction.ofLiteral? (entry : Literal) : Option Instruction :=
  entry.value?.bind Instruction.ofEntry?

namespace Circuit

/-- The literal is a file with this name, these sizes, and an entry for each of the instructions. Whether the
instructions fit is left open. -/
def StandsIn (c : Circuit) (lit : Literal) : Prop :=
  ∃ entries, IsFile c.name c.numQubits c.numClbits entries lit ∧
    List.Forall₂ (fun entry i => Instruction.ofLiteral? entry = some i) entries c.instructions

/-! ## Drafts -/

section Entries

variable {entry : Reader Instruction} {decode : Literal → Option Instruction}

/-- The field with this reader for the entries, if it holds any. -/
def withEntry (entry : Reader Instruction) (field : Json.Field CircuitDraft) : Json.Field CircuitDraft :=
  if field.name = "instructions" then
    { field with read := fun d => return { d with instructions := some (← Json.readListOf entry) } }
  else field

/-- The record of a file with this reader for the entries. -/
def recordOf (entry : Reader Instruction) : Record CircuitDraft Circuit :=
  record.mapFields (withEntry entry)

theorem recordOf_readEntry : recordOf readEntry = record :=
  rfl

theorem readEntry_decodes : readEntry.Decodes (Literal.read (Json.nestingLimit - 2)) Instruction.ofLiteral? :=
  (Json.Value.read_decodes _).andThen fun v text => by
    cases Instruction.ofEntry? v <;> rfl

/-- The fields of a file with what their literals make of a draft. -/
def slots (entry : Reader Instruction) (decode : Literal → Option Instruction) : List (Slot CircuitDraft) :=
  List.zipWith Slot.mk (recordOf entry).fields [
    fun d lit => lit.text?.map fun s => { d with name := some s },
    fun d lit => lit.natural32?.map fun n => { d with numQubits := some n },
    fun d lit => lit.natural32?.map fun n => { d with numClbits := some n },
    fun d lit => (lit.items?.bind (·.mapM decode)).map fun l => { d with instructions := some l }]

theorem slots_decode (h : entry.Decodes (Literal.read (Json.nestingLimit - 2)) decode) :
    ∀ slot ∈ slots entry decode, ∀ draft,
      (slot.field.read draft).Decodes (Literal.read (Json.nestingLimit - 1)) (slot.fill draft) := by
  simp only [slots, recordOf, Record.mapFields, withEntry, record, List.map_cons, List.map_nil, String.reduceEq,
    if_true, if_false, List.zipWith_cons_cons, List.zipWith_nil_right, List.forall_mem_cons]
  exact ⟨fun d => (Json.readString_decodes _).map, fun d => (Json.readNatural32_decodes _).map,
    fun d => (Json.readNatural32_decodes _).map, fun d => (Json.readListOf_decodes h).map, by simp⟩

/-- The value of a field before and behind the literals under its key: they set it at most once. -/
def Sets {α : Type} (reads : Literal → Option α) (before : Option α) : List Literal → Option α → Prop
  | [], after => after = before
  | lit :: literals, after => before = none ∧ literals = [] ∧ after.isSome ∧ reads lit = after

theorem sets_cons {α : Type} {reads : Literal → Option α} {before after : Option α} {lit : Literal}
    {literals : List Literal} : Sets reads before (lit :: literals) after ↔
      before = none ∧ ∃ a, reads lit = some a ∧ Sets reads (some a) literals after := by
  rw [Sets]
  refine and_congr_right fun _ => ?_
  cases literals with
  | nil => cases after <;> simp [Sets]
  | cons lit' literals => simp [Sets]

/-- The value of a field behind a member: under its name it is set, unless it is already, and under any other name it
stays. -/
def put {α : Type} (reads : Literal → Option α) (name : String) (before : Option α) (member : String × Literal) :
    Option (Option α) :=
  if member.1 = name then if before.isSome then none else (reads member.2).map some else some before

theorem sets_under_cons {α : Type} {reads : Literal → Option α} {name : String} {before after : Option α}
    {member : String × Literal} {members : List (String × Literal)} :
    Sets reads before (under (member :: members) name) after ↔
      ∃ mid, put reads name before member = some mid ∧ Sets reads mid (under members name) after := by
  obtain ⟨key, lit⟩ := member
  rw [under_cons]
  by_cases h : key = name
  · cases before <;> simp [put, h, sets_cons]
  · simp [put, h]

/-- A slot whose literal reads as `read` sets its field, which must not be set yet, and leaves the others. -/
theorem fill_eq {α : Type} (before read : Option α) (set : Option α → CircuitDraft) :
    (if before.isSome then none else read.map fun a => set (some a)) =
      (if before.isSome then none else read.map some).bind fun after => some (set after) := by
  cases before <;> cases read <;> rfl

/-- A member goes to the field of its name. -/
theorem enter_eq (d : CircuitDraft) (member : String × Literal) :
    Slot.enter (slots entry decode) d member = do
      let name ← put Literal.text? "name" d.name member
      let numQubits ← put Literal.natural32? "num_qubits" d.numQubits member
      let numClbits ← put Literal.natural32? "num_clbits" d.numClbits member
      let instructions ← put (fun lit => lit.items?.bind (·.mapM decode)) "instructions" d.instructions member
      return { name, numQubits, numClbits, instructions } := by
  obtain ⟨key, lit⟩ := member
  by_cases hname : key = "name"
  · subst hname
    exact fill_eq d.name lit.text? fun name => { d with name }
  by_cases hqubits : key = "num_qubits"
  · subst hqubits
    exact fill_eq d.numQubits lit.natural32? fun numQubits => { d with numQubits }
  by_cases hclbits : key = "num_clbits"
  · subst hclbits
    exact fill_eq d.numClbits lit.natural32? fun numClbits => { d with numClbits }
  by_cases hentries : key = "instructions"
  · subst hentries
    exact fill_eq d.instructions (lit.items?.bind (·.mapM decode)) fun instructions => { d with instructions }
  have hfind : (slots entry decode).find? (·.field.name == key) = none := by
    simp [slots, recordOf, Record.mapFields, withEntry, record, Ne.symm hname, Ne.symm hqubits, Ne.symm hclbits,
      Ne.symm hentries]
  simp [Slot.enter, hfind, put, hname, hqubits, hclbits, hentries]

/-- **Members**: they fill a draft if every field is set at most once, by a literal of its type. -/
theorem foldlM_enter_eq_some {members : List (String × Literal)} {d d' : CircuitDraft} :
    members.foldlM (Slot.enter (slots entry decode)) d = some d' ↔
      Sets Literal.text? d.name (under members "name") d'.name ∧
      Sets Literal.natural32? d.numQubits (under members "num_qubits") d'.numQubits ∧
      Sets Literal.natural32? d.numClbits (under members "num_clbits") d'.numClbits ∧
      Sets (fun lit => lit.items?.bind (·.mapM decode)) d.instructions
        (under members "instructions") d'.instructions := by
  induction members generalizing d with
  | nil =>
    obtain ⟨name, n, m, instructions⟩ := d
    obtain ⟨name', n', m', instructions'⟩ := d'
    simp [under, Sets, eq_comm]
  | cons member members ih =>
    simp only [List.foldlM_cons, enter_eq, Option.bind_eq_bind, Option.bind_eq_some_iff, Option.pure_def,
      Option.some.injEq, ih, sets_under_cons]
    constructor
    · rintro ⟨-, ⟨name, hname, n, hqubits, m, hclbits, l, hentries, rfl⟩, hname', hqubits', hclbits', hentries'⟩
      exact ⟨⟨name, hname, hname'⟩, ⟨n, hqubits, hqubits'⟩, ⟨m, hclbits, hclbits'⟩, l, hentries, hentries'⟩
    · rintro ⟨⟨name, hname, hname'⟩, ⟨n, hqubits, hqubits'⟩, ⟨m, hclbits, hclbits'⟩, l, hentries, hentries'⟩
      exact ⟨⟨name, n, m, l⟩, ⟨name, hname, n, hqubits, m, hclbits, l, hentries, rfl⟩, hname', hqubits', hclbits',
        hentries'⟩

/-! ## Records -/

theorem sets_none_iff {α : Type} {reads : Literal → Option α} {literals : List Literal} {after : Option α} :
    Sets reads none literals after ↔
      literals = [] ∧ after = none ∨ ∃ lit a, literals = [lit] ∧ reads lit = some a ∧ after = some a := by
  rcases literals with _ | ⟨lit, literals⟩
  · simp [Sets]
  · cases after <;> simp [Sets]

theorem finish_eq_some_iff {d : CircuitDraft} {c : Circuit} :
    ((recordOf entry).finish d).toOption = some c ↔ d.name.getD "" = c.name ∧ d.numQubits = some c.numQubits ∧
      d.numClbits.getD 0 = c.numClbits ∧ d.instructions.getD [] = c.instructions := by
  obtain ⟨name, n, m, instructions⟩ := d
  obtain ⟨name', n', m', instructions'⟩ := c
  cases n <;>
    simp [recordOf, Record.mapFields, record, Json.required, Except.toOption, bind, Except.bind, pure, Except.pure]

theorem sets_some_iff {α : Type} {reads : Literal → Option α} {literals : List Literal} {a : α} :
    Sets reads none literals (some a) ↔ Once (fun lit a => reads lit = some a) literals a := by
  rw [sets_none_iff]
  simp [Once]

theorem exists_sets_iff {α : Type} {reads : Literal → Option α} {literals : List Literal} {default a : α} :
    (∃ after, Sets reads none literals after ∧ after.getD default = a) ↔
      OnceOr default (fun lit a => reads lit = some a) literals a := by
  constructor
  · rintro ⟨after, hsets, rfl⟩
    rcases sets_none_iff.mp hsets with ⟨hnil, rfl⟩ | ⟨lit, a, hone, hreads, rfl⟩
    · exact Or.inl ⟨hnil, rfl⟩
    · exact Or.inr ⟨lit, hone, hreads⟩
  · rintro (⟨hnil, rfl⟩ | ⟨lit, hone, hreads⟩)
    · exact ⟨none, sets_none_iff.mpr (Or.inl ⟨hnil, rfl⟩), rfl⟩
    · exact ⟨some a, sets_none_iff.mpr (Or.inr ⟨lit, a, hone, hreads, rfl⟩), rfl⟩

/-- The instructions of a list are those of its entries. -/
theorem onceOr_entries_iff {literals : List Literal} {l : List Instruction} :
    OnceOr [] (fun lit l => lit.items?.bind (·.mapM decode) = some l) literals l ↔
      ∃ entries, OnceOr [] (fun lit entries => lit = .list entries) literals entries ∧
        entries.mapM decode = some l := by
  constructor
  · rintro (⟨hnil, rfl⟩ | ⟨lit, hone, hreads⟩)
    · exact ⟨[], Or.inl ⟨hnil, rfl⟩, rfl⟩
    · obtain ⟨entries, hentries, hl⟩ := Option.bind_eq_some_iff.mp hreads
      exact ⟨entries, Or.inr ⟨lit, hone, Literal.items?_eq_some_iff.mp hentries⟩, hl⟩
  · rintro ⟨entries, ⟨hnil, rfl⟩ | ⟨lit, hone, rfl⟩, hl⟩
    · exact Or.inl ⟨hnil, (Option.some.inj hl).symm⟩
    · exact Or.inr ⟨.list entries, hone, hl⟩

theorem reads_text : (fun lit s => Literal.text? lit = some s) = fun lit s => lit = .text s := by
  funext lit s
  rw [Literal.text?_eq_some_iff]

theorem reads_natural32 : (fun lit n => Literal.natural32? lit = some n) = Literal.IsNatural32 := by
  funext lit n
  rw [Literal.natural32?_eq_some_iff]

theorem ofLiteral?_object {members : List (String × Literal)} {c : Circuit} :
    (recordOf entry).ofLiteral? (slots entry decode) (.object members) = some c ↔
      ∃ entries, IsFile c.name c.numQubits c.numClbits entries (.object members) ∧
        entries.mapM decode = some c.instructions := by
  obtain ⟨name, n, m, l⟩ := c
  rw [Record.ofLiteral?, Option.bind_eq_some_iff]
  constructor
  · rintro ⟨d, hd, hfinish⟩
    obtain ⟨hname, hqubits, hclbits, hentries⟩ := foldlM_enter_eq_some.mp hd
    obtain ⟨fname, fqubits, fclbits, fentries⟩ := finish_eq_some_iff.mp hfinish
    rw [fqubits] at hqubits
    have hname := exists_sets_iff.mp ⟨_, hname, fname⟩
    have hqubits := sets_some_iff.mp hqubits
    have hclbits := exists_sets_iff.mp ⟨_, hclbits, fclbits⟩
    obtain ⟨entries, hentries, hl⟩ := onceOr_entries_iff.mp (exists_sets_iff.mp ⟨_, hentries, fentries⟩)
    rw [reads_text] at hname
    rw [reads_natural32] at hqubits hclbits
    exact ⟨entries, .object hname hqubits hclbits hentries, hl⟩
  · rintro ⟨entries, hfile, hl⟩
    cases hfile with
    | object hname hqubits hclbits hentries =>
      rw [← reads_text] at hname
      rw [← reads_natural32] at hqubits hclbits
      obtain ⟨name, hname, fname⟩ := exists_sets_iff.mpr hname
      obtain ⟨m, hclbits, fclbits⟩ := exists_sets_iff.mpr hclbits
      obtain ⟨l, hentries, fentries⟩ := exists_sets_iff.mpr (onceOr_entries_iff.mpr ⟨entries, hentries, hl⟩)
      exact ⟨⟨name, some n, m, l⟩,
        foldlM_enter_eq_some.mpr ⟨hname, sets_some_iff.mpr hqubits, hclbits, hentries⟩,
        finish_eq_some_iff.mpr ⟨fname, rfl, fclbits, fentries⟩⟩

theorem ofLiteral?_list {items : List Literal} {c : Circuit} :
    (recordOf entry).ofLiteral? (slots entry decode) (.list items) = some c ↔
      ∃ entries, IsFile c.name c.numQubits c.numClbits entries (.list items) ∧
        entries.mapM decode = some c.instructions := by
  obtain ⟨name, n, m, l⟩ := c
  rw [Record.ofLiteral?, Option.bind_eq_some_iff]
  constructor
  · rintro ⟨d, hd, hfinish⟩
    obtain ⟨fname, fqubits, fclbits, fentries⟩ := finish_eq_some_iff.mp hfinish
    dsimp only at fname fqubits fclbits fentries ⊢
    rcases items with _ | ⟨a, _ | ⟨b, _ | ⟨k, _ | ⟨e, _ | ⟨more, items⟩⟩⟩⟩⟩
    all_goals
      simp only [Slot.fillInOrder, slots, recordOf, Record.mapFields, withEntry, record, List.map_cons, List.map_nil,
        String.reduceEq, if_true, if_false, List.zipWith_cons_cons, List.zipWith_nil_right,
        Option.bind_eq_some_iff, Option.map_eq_some_iff, Option.some.injEq, reduceCtorEq, and_false, exists_false] at hd
    · subst hd
      cases fqubits
    · obtain ⟨-, ⟨s, -, rfl⟩, rfl⟩ := hd
      cases fqubits
    · obtain ⟨-, ⟨s, hs, rfl⟩, -, ⟨n', hn, rfl⟩, rfl⟩ := hd
      obtain ⟨rfl, rfl, rfl, rfl⟩ : s = name ∧ n' = n ∧ 0 = m ∧ [] = l :=
        ⟨fname, Option.some.inj fqubits, fclbits, fentries⟩
      obtain rfl := Literal.text?_eq_some_iff.mp hs
      exact ⟨[], .twoItems (Literal.natural32?_eq_some_iff.mp hn), rfl⟩
    · obtain ⟨-, ⟨s, hs, rfl⟩, -, ⟨n', hn, rfl⟩, -, ⟨m', hm, rfl⟩, rfl⟩ := hd
      obtain ⟨rfl, rfl, rfl, rfl⟩ : s = name ∧ n' = n ∧ m' = m ∧ [] = l :=
        ⟨fname, Option.some.inj fqubits, fclbits, fentries⟩
      obtain rfl := Literal.text?_eq_some_iff.mp hs
      exact ⟨[], .threeItems (Literal.natural32?_eq_some_iff.mp hn) (Literal.natural32?_eq_some_iff.mp hm), rfl⟩
    · obtain ⟨-, ⟨s, hs, rfl⟩, -, ⟨n', hn, rfl⟩, -, ⟨m', hm, rfl⟩, -, ⟨l', ⟨entries, he, hl⟩, rfl⟩, rfl⟩ := hd
      obtain ⟨rfl, rfl, rfl, rfl⟩ : s = name ∧ n' = n ∧ m' = m ∧ l' = l :=
        ⟨fname, Option.some.inj fqubits, fclbits, fentries⟩
      obtain rfl := Literal.text?_eq_some_iff.mp hs
      obtain rfl := Literal.items?_eq_some_iff.mp he
      exact ⟨entries, .fourItems (Literal.natural32?_eq_some_iff.mp hn) (Literal.natural32?_eq_some_iff.mp hm), hl⟩
  · rintro ⟨entries, hfile, hl⟩
    cases hfile with
    | twoItems hqubits =>
      obtain rfl := Option.some.inj hl
      have hn := Literal.natural32?_eq_some_iff.mpr hqubits
      refine ⟨⟨some name, some n, none, none⟩, ?_, finish_eq_some_iff.mpr ⟨rfl, rfl, rfl, rfl⟩⟩
      simp [Slot.fillInOrder, slots, recordOf, Record.mapFields, withEntry, record, Literal.text?, hn]
    | threeItems hqubits hclbits =>
      obtain rfl := Option.some.inj hl
      have hn := Literal.natural32?_eq_some_iff.mpr hqubits
      have hm := Literal.natural32?_eq_some_iff.mpr hclbits
      refine ⟨⟨some name, some n, some m, none⟩, ?_, finish_eq_some_iff.mpr ⟨rfl, rfl, rfl, rfl⟩⟩
      simp [Slot.fillInOrder, slots, recordOf, Record.mapFields, withEntry, record, Literal.text?, hn, hm]
    | fourItems hqubits hclbits =>
      have hn := Literal.natural32?_eq_some_iff.mpr hqubits
      have hm := Literal.natural32?_eq_some_iff.mpr hclbits
      refine ⟨⟨some name, some n, some m, some l⟩, ?_, finish_eq_some_iff.mpr ⟨rfl, rfl, rfl, rfl⟩⟩
      simp [Slot.fillInOrder, slots, recordOf, Record.mapFields, withEntry, record, Literal.text?, Literal.items?, hn, hm,
        hl]

/-- **Files**: the record of a literal is the file that stands there. -/
theorem ofLiteral?_eq_some_iff {lit : Literal} {c : Circuit} :
    (recordOf entry).ofLiteral? (slots entry decode) lit = some c ↔
      ∃ entries, IsFile c.name c.numQubits c.numClbits entries lit ∧
        List.Forall₂ (fun entry i => decode entry = some i) entries c.instructions := by
  simp only [← mapM_eq_some_iff]
  cases lit with
  | object members => exact ofLiteral?_object
  | list items => exact ofLiteral?_list
  | null | boolean | numeral | text =>
    obtain ⟨name, n, m, l⟩ := c
    refine ⟨fun h => (by cases h), ?_⟩
    rintro ⟨entries, hfile, -⟩
    cases hfile

end Entries

/-! ## Circuits -/

section Text

variable {keeps : String → Bool} {text : String} {lit : Literal}

/-- What the reader makes of a text that has an outline. -/
theorem document_recordOf {entry : Reader Instruction} {decode : Literal → Option Instruction}
    (hentry : entry.Decodes (Literal.read (Json.nestingLimit - 2)) decode)
    (hkeeps : ∀ field ∈ record.fields, keeps field.name = true)
    (h : Reader.document (Literal.readOutline keeps (Json.nestingLimit - 1)) text = .ok lit) :
    (Reader.document (recordOf entry).read text).toOption = (recordOf entry).ofLiteral? (slots entry decode) lit := by
  have hfields : (recordOf entry).fields = (slots entry decode).map Slot.field := rfl
  have hnames : (recordOf entry).fields.map Json.Field.name = record.fields.map Json.Field.name := rfl
  have hslots : ∀ slot ∈ slots entry decode, keeps slot.field.name = true := by
    intro slot hslot
    have hname := List.mem_map_of_mem (f := Json.Field.name) (hfields ▸ List.mem_map_of_mem hslot)
    rw [hnames] at hname
    obtain ⟨field, hfield, heq⟩ := List.mem_map.mp hname
    exact heq ▸ hkeeps field hfield
  exact (Record.read_decodes hfields hslots (slots_decode hentry)).document h

theorem document_record (hkeeps : ∀ field ∈ record.fields, keeps field.name = true)
    (h : Reader.document (Literal.readOutline keeps (Json.nestingLimit - 1)) text = .ok lit) {file : Circuit} :
    (Reader.document record.read text).toOption = some file ↔ file.StandsIn lit := by
  rw [← recordOf_readEntry, document_recordOf readEntry_decodes hkeeps h]
  exact ofLiteral?_eq_some_iff

theorem ofJson_of_standsIn (hkeeps : ∀ field ∈ record.fields, keeps field.name = true)
    (h : Reader.document (Literal.readOutline keeps (Json.nestingLimit - 1)) text = .ok lit) {file : Circuit}
    (hfile : file.StandsIn lit) : ofJson text = applyAll { file with instructions := [] } file.instructions := by
  have hread := (document_record hkeeps h).mpr hfile
  rw [ofJson, Reader.toOption_eq_some.mp hread]

theorem ofJson_of_not_standsIn (hkeeps : ∀ field ∈ record.fields, keeps field.name = true)
    (h : Reader.document (Literal.readOutline keeps (Json.nestingLimit - 1)) text = .ok lit)
    (hno : ¬ ∃ file : Circuit, file.StandsIn lit) : ∃ fault, ofJson text = .error (.malformedText fault) := by
  cases hread : (Reader.document record.read text).toOption with
  | some file => exact absurd ⟨file, (document_record hkeeps h).mp hread⟩ hno
  | none =>
    obtain ⟨fault, hfault⟩ := Reader.toOption_eq_none.mp hread
    exact ⟨fault, by rw [ofJson, hfault]⟩

/-- **Which texts are circuits.** `lit` is what stands in the text, where every member of the outermost object that
`keeps` does not keep has been passed over. If everything is kept it is the literal of the text as a whole
(`Json.Literal.readOutline_true`); if nothing but the fields is, numbers of any size and brackets of any depth may stand
under the other keys.

A text is the circuit that stands there if all of its instructions fit. It is malformed if and only if no circuit stands
there, whether some of the entries would fit or not. Otherwise the first instruction that does not fit makes the error,
the one that it makes where it is appended to those before it. -/
theorem ofJson_outcome (hkeeps : ∀ field ∈ record.fields, keeps field.name = true)
    (h : Reader.document (Literal.readOutline keeps (Json.nestingLimit - 1)) text = .ok lit) :
    (∀ c, ofJson text = .ok c ↔ c.StandsIn lit ∧ ∀ i ∈ c.instructions, i.Fits c.numQubits c.numClbits) ∧
    ((∃ fault, ofJson text = .error (.malformedText fault)) ↔ ¬ ∃ file : Circuit, file.StandsIn lit) ∧
    ∀ (file : Circuit) (before : List Instruction) (i : Instruction) (after : List Instruction),
      file.StandsIn lit → file.instructions = before ++ i :: after →
      (∀ j ∈ before, j.Fits file.numQubits file.numClbits) → ¬ i.Fits file.numQubits file.numClbits →
      ∃ e, ofJson text = .error e ∧ { file with instructions := before }.apply i = .error e ∧
        ∀ fault, e ≠ .malformedText fault := by
  refine ⟨fun c => ⟨fun hc => ?_, ?_⟩, ⟨?_, ofJson_of_not_standsIn hkeeps h⟩, ?_⟩
  · by_cases hfile : ∃ file : Circuit, file.StandsIn lit
    · obtain ⟨file, hfile⟩ := hfile
      rw [ofJson_of_standsIn hkeeps h hfile] at hc
      obtain ⟨hfits, rfl⟩ := applyAll_eq_ok_iff.mp hc
      exact ⟨hfile, hfits⟩
    · obtain ⟨fault, hfault⟩ := ofJson_of_not_standsIn hkeeps h hfile
      rw [hfault] at hc
      cases hc
  · rintro ⟨hfile, hfits⟩
    rw [ofJson_of_standsIn hkeeps h hfile]
    exact applyAll_eq_ok_iff.mpr ⟨hfits, rfl⟩
  · rintro ⟨fault, hfault⟩ ⟨file, hfile⟩
    rw [ofJson_of_standsIn hkeeps h hfile] at hfault
    exact applyAll_ne_malformedText _ _ _ hfault
  · intro file before i after hfile hsplit hbefore hi
    cases he : check { file with instructions := [] } i with
    | ok u => exact absurd ((check_eq_ok_iff _ i).mp he) hi
    | error e =>
      have happend : { file with instructions := before }.check i = .error e := by
        rw [← he]
        exact check_congr (by rfl) (by rfl) i
      refine ⟨e, ?_, apply_eq_error_iff.mpr happend, ?_⟩
      · rw [ofJson_of_standsIn hkeeps h hfile, hsplit]
        exact applyAll_eq_error hbefore he
      · rintro fault rfl
        exact check_ne_malformedText _ i fault he

end Text

/-- The keys of the fields. -/
def isField (key : String) : Bool :=
  record.fields.any (·.name == key)

theorem isField_name : ∀ field ∈ record.fields, isField field.name = true :=
  fun field hfield => List.any_eq_true.mpr ⟨field, hfield, beq_self_eq_true field.name⟩

/-- The literal of one digit. -/
def digit (c : Char) : Literal :=
  .numeral ⟨false, [c], none, none⟩

/-- A file over one qubit, with its keys out of order. -/
def oneQubit (entries : List Literal) : Literal :=
  .object [("instructions", .list entries), ("num_qubits", digit '1')]

theorem isFile_oneQubit (entries : List Literal) : IsFile "" 1 0 entries (oneQubit entries) := by
  refine .object ?_ ?_ ?_ ?_
  · exact Or.inl ⟨rfl, rfl⟩
  · exact ⟨digit '1', rfl, _, rfl, rfl, rfl, rfl, rfl⟩
  · exact Or.inl ⟨rfl, rfl⟩
  · exact Or.inr ⟨.list entries, rfl, rfl⟩

theorem standsIn_oneQubit {entries : List Literal} {instructions : List Instruction}
    (h : List.Forall₂ (fun entry i => Instruction.ofLiteral? entry = some i) entries instructions) :
    StandsIn { name := "", numQubits := 1, instructions } (oneQubit entries) :=
  ⟨entries, isFile_oneQubit entries, h⟩

/-- A file with a key that does not count, a file with an entry that is no instruction behind one that does not fit, and
a file two of whose instructions do not fit. -/
theorem ofJson_outcome_texts :
    ofJson ("\x7b\"note\":[1e999],\"instructions\":[\x7b\"gate\":\"x\",\"qubits\":[0]\x7d]," ++
        "\"num_qubits\":1\x7d") =
      .ok { name := "", numQubits := 1, instructions := [.ofGate { name := "x" } [⟨0⟩]] } ∧
    (∃ fault, ofJson "[\"\",1,0,[\x7b\"barrier\":[5]\x7d,\x7b\"swap\":[0]\x7d]]" = .error (.malformedText fault)) ∧
    ∃ e, ofJson ("\x7b\"instructions\":[\x7b\"barrier\":[0]\x7d,\x7b\"barrier\":[0,0]\x7d," ++
        "\x7b\"barrier\":[7]\x7d],\"num_qubits\":1\x7d") = .error e ∧
      ({ name := "", numQubits := 1, instructions := [.barrier [⟨0⟩]] } : Circuit).apply (.barrier [⟨0⟩, ⟨0⟩]) =
        .error e := by
  have hgate : List.Forall₂ (fun entry i => Instruction.ofLiteral? entry = some i)
      [.object [("gate", .text "x"), ("qubits", .list [digit '0'])]] [.ofGate { name := "x" } [⟨0⟩]] :=
    .cons rfl .nil
  have hbarriers : List.Forall₂ (fun entry i => Instruction.ofLiteral? entry = some i)
      [.object [("barrier", .list [digit '0'])], .object [("barrier", .list [digit '0', digit '0'])],
        .object [("barrier", .list [digit '7'])]]
      ([.barrier [⟨0⟩]] ++ .barrier [⟨0⟩, ⟨0⟩] :: [.barrier [⟨7⟩]]) :=
    .cons rfl (.cons rfl (.cons rfl .nil))
  refine ⟨?_, ?_, ?_⟩
  · refine ((ofJson_outcome isField_name (Reader.toOption_eq_some.mp (by decide +kernel))).1 _).mpr
      ⟨standsIn_oneQubit hgate, ?_⟩
    simp only [List.forall_mem_singleton]
    exact ⟨by decide, by decide, nofun, nofun⟩
  · refine (@ofJson_outcome isField _ (.list [.text "", digit '1', digit '0', .list
      [.object [("barrier", .list [digit '5'])], .object [("swap", .list [digit '0'])]]]) isField_name
      (Reader.toOption_eq_some.mp (by decide +kernel))).2.1.mpr ?_
    rintro ⟨⟨name, n, m, instructions⟩, entries, hfile, hdecoded⟩
    cases hfile with
    | fourItems =>
      obtain ⟨i, rest, -, hrest, -⟩ := List.forall₂_cons_left_iff.mp hdecoded
      obtain ⟨j, rest', hj, -, -⟩ := List.forall₂_cons_left_iff.mp hrest
      cases hj
  · refine Exists.imp (fun e he => ⟨he.1, he.2.1⟩)
      ((ofJson_outcome isField_name (Reader.toOption_eq_some.mp (by decide +kernel))).2.2 _ _ _ _
        (standsIn_oneQubit hbarriers) rfl ?_ fun h => absurd h.qubits_nodup (by decide))
    simp only [List.forall_mem_singleton]
    exact ⟨by decide, by decide, nofun, nofun⟩

end Circuit

end GateGrid
