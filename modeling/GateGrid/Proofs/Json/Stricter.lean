import GateGrid.Json.Record
import GateGrid.Proofs.Json.Reader

/-!
# Readers that are stricter than others

* `Reader.Stricter fault r r'`: the reader `r` does what `r'` does, or it stops with the fault. So where `r'` reads
  something and `r` does not, the fault is known.
* `Stricter.bind`, `Stricter.iterate`: readers are as strict as their parts, and loops as their steps.
* `readListOf_stricter`, `Record.read_stricter`: so are lists and records.
-/

namespace GateGrid.Json

namespace Reader

variable {α β σ : Type} {fault : Fault}

/-- The reader `r` does what `r'` does, or stops with the fault. -/
def Stricter (fault : Fault) (r r' : Reader α) : Prop :=
  ∀ text, r text = r' text ∨ r text = .error fault

theorem Stricter.refl (r : Reader α) : Stricter fault r r :=
  fun _ => Or.inl rfl

theorem Stricter.bind {r r' : Reader α} {f f' : α → Reader β} (h : Stricter fault r r')
    (hf : ∀ a, Stricter fault (f a) (f' a)) : Stricter fault (r >>= f) (r' >>= f') := by
  intro text
  rcases h text with heq | hfault
  · cases hr : r' text with
    | error e =>
      left
      rw [bind_error (heq.trans hr), bind_error hr]
    | ok p =>
      rw [bind_ok (heq.trans hr), bind_ok hr]
      exact hf p.1 p.2
  · exact Or.inr (bind_error hfault)

/-- Both readers begin with the same. -/
theorem Stricter.of_same {r : Reader α} {f f' : α → Reader β} (hf : ∀ a, Stricter fault (f a) (f' a)) :
    Stricter fault (r >>= f) (r >>= f') :=
  (Stricter.refl r).bind hf

/-- Both readers go on with the same. -/
theorem Stricter.andThen {r r' : Reader α} (h : Stricter fault r r') (f : α → Reader β) :
    Stricter fault (r >>= f) (r' >>= f) :=
  h.bind fun a => .refl (f a)

theorem Stricter.iterate {step step' : σ → Reader (σ ⊕ α)} (h : ∀ s, Stricter fault (step s) (step' s)) (s : σ) :
    Stricter fault (Reader.iterate step s) (Reader.iterate step' s) := by
  have hrounds : ∀ clock s, Stricter fault (rounds step clock s) (rounds step' clock s) := by
    intro clock
    induction clock with
    | nil => exact fun _ => .refl _
    | cons x clock ih =>
      intro s text
      rcases h s text with heq | hfault
      · cases hstep : step' s text with
        | error e =>
          left
          rw [rounds_error (heq.trans hstep), rounds_error hstep]
        | ok p =>
          obtain ⟨next | result, mid⟩ := p
          · rw [rounds_inl (heq.trans hstep), rounds_inl hstep]
            exact ih next mid
          · left
            rw [rounds_inr (heq.trans hstep), rounds_inr hstep]
      · exact Or.inr (rounds_error hfault)
  exact fun text => hrounds (' ' :: text) s text

/-- A document that the one reader takes is taken by the stricter one, or it stops with the fault. -/
theorem Stricter.document {r r' : Reader α} (h : Stricter fault r r') (text : String) :
    document r text = document r' text ∨ document r text = .error fault := by
  rcases h text.toList with heq | hfault
  · left
    show (r text.toList >>= _) = (r' text.toList >>= _)
    rw [heq]
  · right
    show (r text.toList >>= _) = _
    rw [hfault]
    rfl

end Reader

open Reader (Stricter)

variable {α σ : Type} {fault : Fault}

/-! ### Lists and objects -/

theorem readList_stricter {item item' : Reader α} (h : Stricter fault item item') (dialect : Dialect) :
    Stricter fault (readList dialect item) (readList dialect item') := by
  refine Stricter.iterate (fun before => .of_same fun another => ?_) []
  cases another with
  | true => exact h.andThen _
  | false => exact .refl _

theorem readListOf_stricter {item item' : Reader α} (h : Stricter fault item item') :
    Stricter fault (readListOf item) (readListOf item') := by
  refine .of_same fun token => ?_
  cases token with
  | openList => exact readList_stricter h .used
  | _ => exact .refl _

theorem readMembers_stricter {member member' : σ → String → Reader σ}
    (h : ∀ s key, Stricter fault (member s key) (member' s key)) (dialect : Dialect) (s : σ) :
    Stricter fault (readMembers dialect member s) (readMembers dialect member' s) := by
  refine Stricter.iterate (fun state => .of_same fun another => ?_) (true, s)
  cases another with
  | true => exact .of_same fun _ => .of_same fun key => (h state.2 key).andThen _
  | false => exact .refl _

/-! ### Records -/

section Records

variable {record : Record σ α} {f : Field σ → Field σ}

/-- The record with other ways to read its fields. -/
def Record.mapFields (record : Record σ α) (f : Field σ → Field σ) : Record σ α :=
  { record with fields := record.fields.map f }

theorem Record.readMember_stricter (hname : ∀ field, (f field).name = field.name)
    (hset : ∀ field, (f field).isSet = field.isSet)
    (hread : ∀ field ∈ record.fields, ∀ draft, Stricter fault (field.read draft) ((f field).read draft))
    (draft : σ) (key : String) :
    Stricter fault (record.readMember draft key) ((record.mapFields f).readMember draft key) := by
  have hfind : (record.mapFields f).fields.find? (·.name == key) =
      (record.fields.find? (·.name == key)).map f := by
    rw [mapFields, List.find?_map]
    congr 2
    funext field
    rw [Function.comp_apply, hname]
  rw [readMember, readMember, hfind]
  cases hfield : record.fields.find? (·.name == key) with
  | none => exact .refl _
  | some field =>
    have hmem := List.mem_of_find?_eq_some hfield
    dsimp only [Option.map_some]
    rw [hset]
    split_ifs
    · exact .refl _
    · exact .of_same fun _ => hread field hmem draft

theorem readInOrder_stricter {fields : List (Field σ)}
    (hread : ∀ field ∈ fields, ∀ draft, Stricter fault (field.read draft) ((f field).read draft))
    (first : Bool) (draft : σ) :
    Stricter fault (Record.readInOrder fields first draft) (Record.readInOrder (fields.map f) first draft) := by
  induction fields generalizing first draft with
  | nil => exact .refl _
  | cons field fields ih =>
    rw [List.forall_mem_cons] at hread
    refine .of_same fun another => ?_
    cases another with
    | true => exact (hread.1 draft).bind fun draft => ih hread.2 false draft
    | false => exact .refl _

/-- A record is as strict as its fields. -/
theorem Record.read_stricter (hname : ∀ field, (f field).name = field.name)
    (hset : ∀ field, (f field).isSet = field.isSet)
    (hread : ∀ field ∈ record.fields, ∀ draft, Stricter fault (field.read draft) ((f field).read draft)) :
    Stricter fault record.read (record.mapFields f).read := by
  refine .of_same fun token => ?_
  cases token with
  | openObject => exact (readMembers_stricter (readMember_stricter hname hset hread) .used record.blank).andThen _
  | openList =>
    have hindex : ∀ name, (record.mapFields f).fields.findIdx (·.name == name) =
        record.fields.findIdx (·.name == name) := by
      intro name
      rw [mapFields, List.findIdx_map]
      congr 1
      funext field
      rw [Function.comp_apply, hname]
    have hlength : (record.mapFields f).fields.length = record.fields.length := List.length_map _
    refine (readInOrder_stricter hread true record.blank).bind fun draft => ?_
    simp only [hindex, hlength]
    exact .refl _
  | _ => exact .refl _

end Records

end GateGrid.Json
