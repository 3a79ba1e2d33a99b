import GateGrid.Proofs.Json.PassingOver

/-!
# Records by their literals

* `Literal.readOutline keeps`: a literal of which those members of the outermost object that `keeps` does not keep have
  been passed over.
* `Slot`: a field of a record with what a literal in its place makes of a draft. `Slot.enter` takes in a member of an
  object and `Slot.fillInOrder` the items of a list.
* `Record.read_decodes`: whatever a text has for its outline, the record reader makes of it what `Record.ofLiteral?`
  says, and fails where that is nothing.
-/

namespace GateGrid.Json

/-! ## Outlines -/

/-- Reads the member with this key if it is kept, and passes over any other. The members before it stand last first. -/
def outlineMember (keeps : String → Bool) (room : Nat) (before : List (String × Literal)) (key : String) :
    Reader (List (String × Literal)) := do
  readColon
  if keeps key then return (key, ← Literal.read room) :: before
  else
    passOver
    return before

/-- A literal without those members of the outermost object that are not kept. -/
def Literal.readOutline (keeps : String → Bool) (room : Nat) : Reader Literal := do
  ofToken (return .list (← readList .used (read room)))
    (return .object (← readMembers .used (outlineMember keeps room) []).reverse)
    (← Token.read .used)

/-- A literal is its own outline if everything is kept. -/
theorem Literal.readOutline_true (room : Nat) : readOutline (fun _ => true) room = read (room + 1) := by
  have hmember : outlineMember (fun _ => true) room = fun before key => do
      readColon
      return (key, ← read room) :: before := rfl
  simp only [readOutline, hmember, read, readObject, bind_assoc, pure_bind]

/-! ## Drafts -/

/-- A field with what a literal in its place makes of a draft. -/
structure Slot (σ : Type) where
  field : Field σ
  fill : σ → Literal → Option σ

namespace Slot

variable {σ : Type}

/-- The draft behind a member. Members of other names do not count, and a field that is set is not set again. -/
def enter (slots : List (Slot σ)) (draft : σ) (m : String × Literal) : Option σ :=
  match slots.find? (·.field.name == m.1) with
  | none => some draft
  | some slot => if slot.field.isSet draft then none else slot.fill draft m.2

/-- The draft behind the items of a list. There must not be more items than fields. -/
def fillInOrder : List (Slot σ) → σ → List Literal → Option σ
  | _, draft, [] => some draft
  | [], _, _ :: _ => none
  | slot :: slots, draft, item :: items => (slot.fill draft item).bind fun draft => fillInOrder slots draft items

@[simp]
theorem fillInOrder_nil (slots : List (Slot σ)) (draft : σ) : fillInOrder slots draft [] = some draft := by
  cases slots <;> rfl

end Slot

/-- The record that a literal stands for. -/
def Record.ofLiteral? {σ α : Type} (record : Record σ α) (slots : List (Slot σ)) : Literal → Option α
  | .object members => (members.foldlM (Slot.enter slots) record.blank).bind fun draft => (record.finish draft).toOption
  | .list items => (Slot.fillInOrder slots record.blank items).bind fun draft => (record.finish draft).toOption
  | _ => none

/-! ## Reading -/

section Items

variable {σ α : Type} {room : Nat}

/-- Where no item follows, the list can be closed. -/
theorem closeList_of_no_item {first : Bool} {text mid : List Char}
    (h : anotherItem .used first text = .ok (false, mid)) :
    ∃ left, closeList text = .ok ((), left) ∧ closeList mid = .ok ((), left) := by
  rw [anotherItem, Reader.bind_ok (Reader.peekSolid_eq text)] at h
  have hclose : ∀ solid : List Char, text.dropWhile isBlank = solid → ∀ left, solid = ']' :: left →
      closeList text = .ok ((), left) := by
    rintro solid hsolid left rfl
    rw [closeList, Reader.bind_ok (Reader.peekSolid_eq text), hsolid]
    rfl
  generalize text.dropWhile isBlank = solid at h hclose
  rcases solid with _ | ⟨c, left⟩
  · cases h
  by_cases hc : c = ']'
  · subst hc
    obtain ⟨-, rfl⟩ := Prod.mk.inj (Except.ok.inj h)
    exact ⟨left, hclose _ rfl left rfl, rfl⟩
  · simp only [List.head?_cons] at h
    split_ifs at h
    · cases h
    · obtain ⟨-, mid', -, h⟩ := Reader.bind_eq_ok h
      obtain ⟨d, mid'', -, h⟩ := Reader.bind_eq_ok h
      split at h <;> cases h
    · cases h

/-- Where an item follows, the list cannot be closed. -/
theorem closeList_of_item {first : Bool} {text mid : List Char} (h : anotherItem .used first text = .ok (true, mid)) :
    ∃ fault, closeList text = .error fault := by
  rw [anotherItem, Reader.bind_ok (Reader.peekSolid_eq text)] at h
  rw [closeList, Reader.bind_ok (Reader.peekSolid_eq text)]
  generalize text.dropWhile isBlank = solid at h
  rcases solid with _ | ⟨c, left⟩
  · cases h
  by_cases hc : c = ']'
  · subst hc
    cases h
  by_cases hcomma : c = ','
  · subst hcomma
    have hskip : Reader.skip (',' :: left) = .ok ((), left) := rfl
    show ∃ fault, (Reader.skip >>= fun _ => _) (',' :: left) = .error fault
    rw [Reader.bind_ok hskip, Reader.bind_ok (Reader.peekSolid_eq left)]
    split_ifs
    · exact ⟨_, rfl⟩
    · exact ⟨_, rfl⟩
  · simp only [List.head?_cons]
    exact ⟨_, rfl⟩

variable {record : Record σ α} {slots : List (Slot σ)}

/-- What the list of a draft amounts to: the record and the end of the list, or a fault if a field is missing. -/
def Record.closeItems (record : Record σ α) (fault : String → Fault) (draft : σ) : Reader α :=
  match record.finish draft with
  | .ok value => do
    closeList
    return value
  | .error name => throw (fault name)

theorem Record.closeItems_toOption (fault : String → Fault) (draft : σ) (text : List Char) :
    (record.closeItems fault draft text).toOption =
      (record.finish draft).toOption.bind fun value => (closeList text).toOption.map fun p => (value, p.2) := by
  rw [closeItems]
  cases record.finish draft with
  | error name => rfl
  | ok value =>
    dsimp only
    rw [Reader.toOption_bind]
    cases (closeList text).toOption <;> rfl

/-- **Lists of fields**: the items go to the fields in their order. `before` are the items of the list so far. -/
theorem readInOrder_items (fault : String → Fault)
    (hfill : ∀ slot ∈ slots, ∀ draft, (slot.field.read draft).Decodes (Literal.read room) (slot.fill draft))
    {clock text rest : List Char} {before items : List Literal}
    (h : Reader.rounds (listStep .used (Literal.read room)) clock before text = .ok (items, rest)) (draft : σ) :
    ∃ new, items = before.reverse ++ new ∧
      ((Record.readInOrder (slots.map Slot.field) before.isEmpty draft >>= record.closeItems fault) text).toOption =
        ((Slot.fillInOrder slots draft new).bind fun draft => (record.finish draft).toOption).map
          fun value => (value, rest) := by
  induction clock generalizing slots before text draft with
  | nil => cases h
  | cons x clock ih =>
    cases hstep : listStep .used (Literal.read room) before text with
    | error fault =>
      rw [Reader.rounds_error hstep] at h
      cases h
    | ok p =>
      obtain ⟨next, mid⟩ := p
      rcases listStep_eq_ok hstep with ⟨mid', lit, hanother, hlit, rfl⟩ | ⟨mid', hanother, hclose, rfl⟩
      · rw [Reader.rounds_inl hstep] at h
        cases slots with
        | nil =>
          -- there is no field for this item
          obtain ⟨new, rfl, -⟩ := ih hfill h draft
          obtain ⟨fault', hopen⟩ := closeList_of_item hanother
          refine ⟨lit :: new, by simp, ?_⟩
          show (record.closeItems fault draft text).toOption = none
          rw [Record.closeItems_toOption, hopen]
          cases (record.finish draft).toOption <;> rfl
        | cons slot slots =>
          have hrest := fun s hs => hfill s (List.mem_cons_of_mem slot hs)
          have hread := hfill slot List.mem_cons_self draft mid' lit mid hlit
          rw [List.map_cons, Record.readInOrder, bind_assoc, Reader.bind_ok hanother]
          show ∃ new, _ ∧ (((slot.field.read draft >>= fun draft =>
            Record.readInOrder (slots.map Slot.field) false draft) >>= record.closeItems fault) mid').toOption = _
          rw [bind_assoc, Reader.toOption_bind, hread]
          cases hdraft : slot.fill draft lit with
          | none =>
            obtain ⟨new, rfl, -⟩ := ih hrest h draft
            exact ⟨lit :: new, by simp, by simp [Slot.fillInOrder, hdraft]⟩
          | some draft' =>
            obtain ⟨new, rfl, hnew⟩ := ih hrest h draft'
            exact ⟨lit :: new, by simp, by simpa [Slot.fillInOrder, hdraft] using hnew⟩
      · rw [Reader.rounds_inr hstep] at h
        obtain ⟨rfl, rfl⟩ := Prod.mk.inj (Except.ok.inj h)
        refine ⟨[], (List.append_nil _).symm, ?_⟩
        rw [Slot.fillInOrder_nil, Option.bind_some]
        cases slots with
        | nil =>
          obtain ⟨left, htext, hmid⟩ := closeList_of_no_item hanother
          obtain ⟨-, rfl⟩ := Prod.mk.inj (Except.ok.inj (hmid.symm.trans hclose))
          show (record.closeItems fault draft text).toOption = _
          rw [Record.closeItems_toOption, htext]
          cases (record.finish draft).toOption <;> rfl
        | cons slot slots =>
          rw [List.map_cons, Record.readInOrder, bind_assoc, Reader.bind_ok hanother]
          show (record.closeItems fault draft mid').toOption = _
          rw [Record.closeItems_toOption, hclose]
          cases (record.finish draft).toOption <;> rfl

theorem readMember_decodes {keeps : String → Bool} (hfields : record.fields = slots.map Slot.field)
    (hkeeps : ∀ slot ∈ slots, keeps slot.field.name = true)
    (hfill : ∀ slot ∈ slots, ∀ draft, (slot.field.read draft).Decodes (Literal.read room) (slot.fill draft))
    {draft : σ} {before : List (String × Literal)}
    (hbefore : before.reverse.foldlM (Slot.enter slots) record.blank = some draft) (key : String) :
    (record.readMember draft key).Decodes (outlineMember keeps room before key)
      fun before => before.reverse.foldlM (Slot.enter slots) record.blank := by
  have hnext : ∀ lit, ((key, lit) :: before).reverse.foldlM (Slot.enter slots) record.blank =
      Slot.enter slots draft (key, lit) := by
    intro lit
    rw [List.reverse_cons, List.foldlM_append, hbefore]
    show [(key, lit)].foldlM (Slot.enter slots) draft = _
    rw [List.foldlM_cons]
    cases Slot.enter slots draft (key, lit) <;> rfl
  have hfind : record.fields.find? (·.name == key) = (slots.find? (·.field.name == key)).map Slot.field := by
    rw [hfields, List.find?_map]
    rfl
  rw [Record.readMember, hfind]
  unfold outlineMember
  cases hslot : slots.find? (·.field.name == key) with
  | none =>
    refine Reader.Decodes.of_same fun _ => ?_
    split_ifs
    · refine (passOver_decodes room).map.source fun lit => ?_
      rw [hnext, Slot.enter, hslot]
      rfl
    · exact Reader.Decodes.of_same fun _ => .of_pure fun text => by rw [hbefore]; rfl
  | some slot =>
    have hmem := List.mem_of_find?_eq_some hslot
    have hname : slot.field.name = key := by simpa using List.find?_some hslot
    have henter : ∀ lit, ((key, lit) :: before).reverse.foldlM (Slot.enter slots) record.blank =
        if slot.field.isSet draft then none else slot.fill draft lit := by
      intro lit
      rw [hnext, Slot.enter, hslot]
    rw [if_pos (hname ▸ hkeeps slot hmem)]
    dsimp only [Option.map_some]
    cases hset : slot.field.isSet draft with
    | true =>
      intro text after rest hsource
      obtain ⟨-, mid, -, hsource⟩ := Reader.bind_eq_ok hsource
      obtain ⟨lit, mid', -, hsource⟩ := Reader.bind_eq_ok hsource
      obtain ⟨rfl, -⟩ := Reader.pure_eq_ok hsource
      dsimp only
      rw [henter, hset]
      rfl
    | false =>
      refine Reader.Decodes.of_same fun _ => (hfill slot hmem draft).source fun lit => ?_
      rw [henter, hset]
      rfl

/-- A member that did not fit is not made good by a later one. -/
theorem outlineMember_lost {keeps : String → Bool} {before after : List (String × Literal)} {key : String}
    {text rest : List Char} (hbefore : before.reverse.foldlM (Slot.enter slots) record.blank = none)
    (h : outlineMember keeps room before key text = .ok (after, rest)) :
    after.reverse.foldlM (Slot.enter slots) record.blank = none := by
  obtain ⟨-, mid, -, h⟩ := Reader.bind_eq_ok h
  split_ifs at h
  · obtain ⟨lit, mid', -, h⟩ := Reader.bind_eq_ok h
    obtain ⟨rfl, -⟩ := Reader.pure_eq_ok h
    rw [List.reverse_cons, List.foldlM_append, hbefore]
    rfl
  · obtain ⟨-, mid', -, h⟩ := Reader.bind_eq_ok h
    obtain ⟨rfl, -⟩ := Reader.pure_eq_ok h
    exact hbefore

/-- **Records**: what a record reader makes of a text is what its outline stands for. -/
theorem Record.read_decodes {keeps : String → Bool} (hfields : record.fields = slots.map Slot.field)
    (hkeeps : ∀ slot ∈ slots, keeps slot.field.name = true)
    (hfill : ∀ slot ∈ slots, ∀ draft, (slot.field.read draft).Decodes (Literal.read room) (slot.fill draft)) :
    record.read.Decodes (Literal.readOutline keeps room) (record.ofLiteral? slots) := by
  refine Reader.Decodes.of_same fun token => ?_
  cases token with
  | openObject =>
    have hmembers : (readMembers .used record.readMember record.blank).Decodes
        (readMembers .used (outlineMember keeps room) [])
        fun before => before.reverse.foldlM (Slot.enter slots) record.blank :=
      readMembers_decodes
        (fun draft before key hbefore => readMember_decodes hfields hkeeps hfill hbefore key)
        (fun before key text after rest hbefore h => outlineMember_lost hbefore h) rfl
    intro text lit rest hsource
    obtain ⟨before, mid, hbefore, hsource⟩ := Reader.bind_eq_ok hsource
    obtain ⟨rfl, rfl⟩ := Reader.pure_eq_ok hsource
    refine (Reader.toOption_bind (readMembers .used record.readMember record.blank) _ text).trans ?_
    rw [hmembers text before mid hbefore, ofLiteral?]
    dsimp only
    cases before.reverse.foldlM (Slot.enter slots) record.blank with
    | none => rfl
    | some draft =>
      simp only [Option.map_some, Option.bind_some]
      cases record.finish draft <;> rfl
  | openList =>
    intro text lit rest hsource
    obtain ⟨items, mid, hitems, hsource⟩ := Reader.bind_eq_ok hsource
    obtain ⟨rfl, rfl⟩ := Reader.pure_eq_ok hsource
    obtain ⟨new, rfl, hnew⟩ := readInOrder_items
      (fun name => .tooFewFields (record.fields.findIdx (·.name == name)) record.name record.fields.length)
      hfill hitems record.blank
    rw [← hfields] at hnew
    exact hnew
  | null | boolean | numeral | text => exact .of_pure fun text => Token.wrongType_toOption _ _ _

/-- A text that is read is the whole document for both readers. -/
theorem Reader.Decodes.document {β : Type} {r : Reader α} {source : Reader β} {decode : β → Option α}
    (h : r.Decodes source decode) {text : String} {b : β} (hsource : Reader.document source text = .ok b) :
    (Reader.document r text).toOption = decode b := by
  have hopen : ∀ {γ : Type} (r : Reader γ), Reader.document r text =
      r text.toList >>= fun p =>
        if (p.2.dropWhile isBlank).isEmpty then .ok p.1 else .error .trailingText := fun _ => rfl
  rw [hopen] at hsource ⊢
  obtain ⟨⟨b', rest⟩, hb, hend⟩ := Except.bind_eq_ok_iff.mp hsource
  have hr := h text.toList b' rest hb
  split_ifs at hend with hrest
  obtain rfl := Except.ok.inj hend
  cases ha : decode b' with
  | none =>
    rw [ha] at hr
    obtain ⟨fault, hfault⟩ := Reader.toOption_eq_none.mp hr
    rw [hfault]
    rfl
  | some a =>
    rw [ha] at hr
    rw [Reader.toOption_eq_some.mp hr, Reader.toOption_eq_some]
    exact Except.bind_eq_ok_iff.mpr ⟨_, rfl, if_pos hrest⟩

end Items

end GateGrid.Json
