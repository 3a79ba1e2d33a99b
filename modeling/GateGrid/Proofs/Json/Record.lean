import GateGrid.Proofs.Json.Tree

/-!
# Records read back

* `readString_yields`, `readListOf_yields`, `readListOf_compact`: texts and lists of a known type.
* `Entered`: a field with the text that was written for it and what that text makes of a draft.
* `Record.read_entered`: an object of entered fields is the record that the fields make of the blank draft. A field
  that stands there twice is a fault.
-/

namespace GateGrid.Json

theorem readString_yields (s : String) : readString.Yields (writeText s) (.ok s) := by
  intro w rest hw _
  exact Reader.bind_ok (token_writeText s hw rest)

theorem readStringOrNull_yields (s : String) : readStringOrNull.Yields (writeText s) (.ok (some s)) := by
  intro w rest hw _
  exact Reader.bind_ok (token_writeText s hw rest)

theorem readListOf_yields {α β : Type} {item : Reader α} {part : β → List Char} {value : β → Except Fault α}
    {items : List β} {text : List Char} (htext : Enclosed '[' ']' (items.map part) text)
    (hitem : ∀ b ∈ items, item.Yields (part b) (value b)) (hopens : ∀ b ∈ items, Opens (part b)) :
    (readListOf item).Yields text (items.mapM value) := by
  intro w rest hw _
  obtain ⟨body, rfl, hbody⟩ := readList_enclosed htext hitem hopens
  exact (Reader.bind_ok (Value.token_openList hw (body ++ rest))).trans (hbody rest)

/-- A list in the compact form. -/
theorem readListOf_compact {α : Type} {item : Reader α} {write : α → Value} {value : α → Except Fault α}
    (hitem : ∀ a, item.Yields (write a).writeCompact (value a)) (hopens : ∀ a, Opens (write a).writeCompact)
    (items : List α) : (readListOf item).Yields (Value.list (items.map write)).writeCompact (items.mapM value) := by
  have htext := Value.enclosed_list (items.map write)
  rw [List.map_map] at htext
  exact readListOf_yields htext (fun a _ => hitem a) fun a _ => hopens a

/-- A field with its written text, and the drafts that reading the text leads to. -/
structure Entered (σ : Type) where
  field : Field σ
  text : List Char
  fill : σ → Except Fault σ

namespace Entered

variable {σ : Type}

/-- The draft behind the member; a field that is set is not set again. -/
def next (draft : σ) (m : Entered σ) : Except Fault σ :=
  if m.field.isSet draft then .error (.repeatedField m.field.name) else m.fill draft

/-- The member as it is written. -/
def member (m : Entered σ) : List Char :=
  writeText m.field.name ++ ':' :: ' ' :: m.text

end Entered

namespace Record

variable {σ α : Type} {record : Record σ α}

theorem readMember_entered {m : Entered σ} {gap : List Char} (hgap : Blank gap)
    (hfind : record.fields.find? (·.name == m.field.name) = some m.field)
    (hread : ∀ draft, (m.field.read draft).Yields m.text (m.fill draft)) (draft : σ) {rest : List Char}
    (hrest : Ends rest) :
    record.readMember draft m.field.name (':' :: (gap ++ m.text) ++ rest) =
      (m.next draft).map fun draft => (draft, rest) := by
  rw [readMember, hfind, Entered.next, List.cons_append, List.append_assoc]
  dsimp only
  split_ifs
  · rfl
  · exact (Reader.bind_ok (readColon_cons blank_nil _)).trans (hread draft gap rest hgap hrest)

/-- What the object of a draft amounts to. -/
def conclude (record : Record σ α) (draft : σ) : Except Fault α :=
  match record.finish draft with
  | .ok value => .ok value
  | .error name => .error (.missingField name)

/-- **Records**: the fields fill the blank draft in their order, and the record is what the last draft amounts to. The
layout does not matter, nor does white space in front of the values. -/
theorem read_entered {members : List (Entered σ)} {gap text : List Char} (hgap : Blank gap)
    (htext : Enclosed '\x7b' '\x7d' (members.map fun m => writeText m.field.name ++ ':' :: (gap ++ m.text)) text)
    (hfind : ∀ m ∈ members, record.fields.find? (·.name == m.field.name) = some m.field)
    (hread : ∀ m ∈ members, ∀ draft, (m.field.read draft).Yields m.text (m.fill draft)) :
    record.read.Yields text ((members.foldlM Entered.next record.blank).bind record.conclude) := by
  intro w rest hw _
  obtain ⟨body, rfl, hbody⟩ := readMembers_enclosed record.readMember (fun m : Entered σ => m.field.name)
    (fun m => ':' :: (gap ++ m.text)) Entered.next htext
    fun m hm draft t ht => readMember_entered hgap (hfind m hm) (hread m hm) draft ht
  rw [read]
  refine (Reader.bind_ok (Value.token_openObject hw (body ++ rest))).trans
    ((Reader.bind_map (hbody record.blank rest)).trans ?_)
  cases members.foldlM Entered.next record.blank with
  | error fault => rfl
  | ok draft =>
    show (match record.finish draft with
      | .ok value => pure value
      | .error name => throw (.missingField name) : Reader α) rest = (record.conclude draft).map _
    rw [conclude]
    cases record.finish draft <;> rfl

end Record

end GateGrid.Json
