import GateGrid.Proofs.Json.Record

/-!
# Choices read back

* `Choice.read_bare`: the name of a choice that stands alone.
* `Choice.read_holding`: an object of any layout with one member, whose key is the name of a choice with a content. What
  is read is what the content gives, a value or a fault.
-/

namespace GateGrid.Json

theorem peekSolid_writeText {w : List Char} (hw : Blank w) (s : String) (rest : List Char) :
    Reader.peekSolid (w ++ (writeText s ++ rest)) = .ok (some '"', writeText s ++ rest) :=
  Reader.peekSolid_cons hw rfl

namespace Choice

variable {α : Type} {choices : List (Choice α)} {choice : Choice α} {name : String}

theorem named_eq (h : choices.find? (·.name == name) = some choice) (rest : List Char) :
    named choices name rest = .ok (choice, rest) := by
  rw [named, h]
  rfl

theorem read_bare {value : α} (h : choices.find? (·.name == name) = some (.bare name value)) :
    (read choices).Yields (writeText name) (.ok value) := by
  intro w rest hw hrest
  rw [read, Reader.bind_ok (peekSolid_writeText hw name rest)]
  show (readString >>= fun s => named choices s >>= alone) (writeText name ++ rest) = _
  rw [Reader.bind_ok ((readString_yields name).apply hrest), Reader.bind_ok (named_eq h rest)]
  rfl

/-- The key of a choice. -/
theorem readName_writeText {w rest : List Char} (hw : Blank w) (hrest : Ends rest) :
    readName (w ++ (writeText name ++ rest)) = .ok (name, rest) := by
  rw [readName, Reader.bind_ok (peekSolid_writeText hw name rest)]
  exact (readString_yields name).apply hrest

theorem read_holding {content : Reader α} {gap inner text : List Char} {result : Except Fault α}
    (h : choices.find? (·.name == name) = some (.holding name content)) (hgap : Blank gap)
    (htext : Enclosed '\x7b' '\x7d' [writeText name ++ ':' :: (gap ++ inner)] text)
    (hcontent : content.Yields inner result) : (read choices).Yields text result := by
  intro w rest hw _
  obtain ⟨v, v', hv, hv', rfl⟩ := htext
  have hbrace : Ends (v' ++ '\x7d' :: rest) := (ends_cons (by decide)).blank_append hv'
  have hparts :
      ('\x7b' :: (v ++ ((',' :: v).intercalate [writeText name ++ ':' :: (gap ++ inner)] ++ (v' ++ ['\x7d'])))) ++ rest =
        '\x7b' :: (v ++ (writeText name ++ ':' :: (gap ++ (inner ++ (v' ++ '\x7d' :: rest))))) := by
    simp [List.intercalate]
  have hskip : Reader.skip ('\x7b' :: (v ++ (writeText name ++ ':' :: (gap ++ (inner ++ (v' ++ '\x7d' :: rest)))))) =
      .ok ((), v ++ (writeText name ++ ':' :: (gap ++ (inner ++ (v' ++ '\x7d' :: rest))))) := rfl
  rw [hparts, read]
  refine (Reader.bind_ok (Reader.peekSolid_cons hw rfl)).trans ((Reader.bind_ok hskip).trans ?_)
  refine (Reader.bind_ok (readName_writeText hv (ends_cons (by decide)))).trans
    ((Reader.bind_ok (named_eq h _)).trans ((Reader.bind_ok (readColon_cons blank_nil _)).trans ?_))
  refine (Reader.bind_map (hcontent gap _ hgap hbrace)).trans ?_
  cases result with
  | error fault => rfl
  | ok a => exact Reader.bind_ok (Reader.peekSolid_cons hv' rfl)

end Choice

end GateGrid.Json
