import GateGrid.Proofs.Json.Container
import GateGrid.Proofs.Json.Numeral

/-!
# Trees read back

* `Value.reread`: what comes back of a tree. Its numbers come back as `Number.reread` says, everything else as it was;
  a number that is out of range is the fault of the whole tree.
* `Value.Within room v`: at most `room` lists and objects of `v` stand inside each other.
* `Value.read_writePretty`: a tree that is written on several lines and fits the room is read as its `reread`.
-/

namespace GateGrid.Json.Value

mutual

/-- The tree that is read where this one has been written. -/
def reread : Value → Except Fault Value
  | .number n => n.reread
  | .list items => do return .list (← rereadItems items)
  | .object members => do return .object (← rereadMembers members)
  | scalar => .ok scalar

def rereadItems : List Value → Except Fault (List Value)
  | [] => .ok []
  | v :: rest => do return (← v.reread) :: (← rereadItems rest)

def rereadMembers : List (String × Value) → Except Fault (List (String × Value))
  | [] => .ok []
  | (key, v) :: rest => do return (key, ← v.reread) :: (← rereadMembers rest)

end

/-- The lists and objects that stand inside each other are at most as many as there is room for. -/
def Within : Nat → Value → Prop
  | room + 1, .list items => ∀ v ∈ items, v.Within room
  | room + 1, .object members => ∀ m ∈ members, m.2.Within room
  | 0, .list _ => False
  | 0, .object _ => False
  | _, _ => True

/-! ### Room -/

theorem within_number (room : Nat) (n : Number) : (number n).Within room := by
  cases room <;> trivial

theorem within_text (room : Nat) (s : String) : (text s).Within room := by
  cases room <;> trivial

theorem within_map {α : Type} {write : α → Value} {room : Nat} (h : ∀ a, (write a).Within room) (l : List α) :
    (list (l.map write)).Within (room + 1) := by
  rw [Within]
  intro v hv
  obtain ⟨a, -, rfl⟩ := List.mem_map.mp hv
  exact h a

theorem within_object {room : Nat} {members : List (String × Value)} (h : ∀ m ∈ members, m.2.Within room) :
    (object members).Within (room + 1) := by
  rw [Within]
  exact h

/-! ### Items and members one by one -/

theorem rereadItems_eq (items : List Value) : rereadItems items = items.mapM reread := by
  induction items with
  | nil => rfl
  | cons v items ih => rw [rereadItems, ih, List.mapM_cons]

theorem rereadMembers_eq (members : List (String × Value)) :
    rereadMembers members = members.mapM fun m => m.2.reread.map (Prod.mk m.1) := by
  induction members with
  | nil => rfl
  | cons m members ih =>
    rw [rereadMembers, ih, List.mapM_cons]
    cases m.2.reread <;> rfl

theorem writePrettyItems_eq (level : Nat) (items : List Value) :
    writePrettyItems level items = items.map (writePretty level) := by
  induction items with
  | nil => rfl
  | cons v items ih => rw [writePrettyItems, ih, List.map_cons]

theorem writePrettyMembers_eq (level : Nat) (members : List (String × Value)) :
    writePrettyMembers level members =
      members.map fun m => writeText m.1 ++ ':' :: ' ' :: m.2.writePretty level := by
  induction members with
  | nil => rfl
  | cons m members ih => rw [writePrettyMembers, ih, List.map_cons]

theorem writeItems_eq (items : List Value) : writeItems items = items.map writeCompact := by
  induction items with
  | nil => rfl
  | cons v items ih => rw [writeItems, ih, List.map_cons]

theorem writeMembers_eq (members : List (String × Value)) :
    writeMembers members = members.map fun m => writeText m.1 ++ ':' :: m.2.writeCompact := by
  induction members with
  | nil => rfl
  | cons m members ih => rw [writeMembers, ih, List.map_cons]

/-! ### Layouts -/

theorem enclosed_list (items : List Value) :
    Enclosed '[' ']' (items.map writeCompact) (list items).writeCompact := by
  rw [writeCompact, writeItems_eq]
  exact enclosed_compact _ _ _

theorem enclosed_object (members : List (String × Value)) :
    Enclosed '\x7b' '\x7d' (members.map fun m => writeText m.1 ++ ':' :: m.2.writeCompact)
      (object members).writeCompact := by
  rw [writeCompact, writeMembers_eq]
  exact enclosed_compact _ _ _

theorem enclosed_bracketed (opening closing : Char) (level : Nat) (parts : List (List Char)) :
    Enclosed opening closing parts (bracketed opening closing level parts) := by
  have hline : ∀ level, Blank (newLine level) := by
    intro level c hc
    rcases List.mem_cons.mp hc with rfl | hc
    · rfl
    · rw [List.eq_of_mem_replicate hc]
      rfl
  unfold bracketed
  split_ifs with hempty
  · obtain rfl := List.isEmpty_iff.mp hempty
    exact ⟨[], [], blank_nil, blank_nil, rfl⟩
  · exact ⟨newLine (level + 1), newLine level, hline _, hline _, by simp⟩

theorem opens_number (n : Number) : Opens n.text.toList := by
  rcases n.text_cases with ⟨m, hm, htext⟩ | htext
  · rw [htext]
    obtain ⟨c, t, ht, hc⟩ := hm.whole.cons_isDigit
    unfold Numeral.spelling Numeral.unsigned
    split_ifs
    · exact ⟨'-', _, rfl, rfl, by decide⟩
    · rw [ht]
      refine ⟨c, _, rfl, (ne_of_isDigit hc).2.2.2.2.2.2, ?_⟩
      rintro rfl
      cases hc
  · rw [htext]
    exact ⟨'n', _, rfl, rfl, by decide⟩

/-- Every value begins with a character of its own. -/
theorem opens_writePretty (level : Nat) (v : Value) : Opens (v.writePretty level) := by
  cases v with
  | null => exact ⟨'n', _, rfl, rfl, by decide⟩
  | boolean b => cases b <;> exact ⟨_, _, rfl, rfl, by decide⟩
  | number n => exact opens_number n
  | text s => exact ⟨'"', _, rfl, rfl, by decide⟩
  | list items =>
    obtain ⟨w, w', -, -, htext⟩ := enclosed_bracketed '[' ']' level (writePrettyItems (level + 1) items)
    exact ⟨'[', _, htext, rfl, by decide⟩
  | object members =>
    obtain ⟨w, w', -, -, htext⟩ := enclosed_bracketed '\x7b' '\x7d' level (writePrettyMembers (level + 1) members)
    exact ⟨'\x7b', _, htext, rfl, by decide⟩

/-! ### Trees -/

theorem token_openList {w : List Char} (hw : Blank w) (rest : List Char) :
    Token.read .used (w ++ '[' :: rest) = .ok (.openList, rest) := by
  rw [Token.read_blank hw rfl]
  rfl

theorem token_openObject {w : List Char} (hw : Blank w) (rest : List Char) :
    Token.read .used (w ++ '\x7b' :: rest) = .ok (.openObject, rest) := by
  rw [Token.read_blank hw rfl]
  rfl

theorem token_boolean (b : Bool) :
    (Token.read .used).Yields ((if b then "true" else "false").toList) (.ok (.boolean b)) := by
  intro w rest hw _
  cases b with
  | false =>
    show Token.read .used (w ++ 'f' :: 'a' :: 'l' :: 's' :: 'e' :: rest) = _
    rw [Token.read_blank hw rfl]
    rfl
  | true =>
    show Token.read .used (w ++ 't' :: 'r' :: 'u' :: 'e' :: rest) = _
    rw [Token.read_blank hw rfl]
    rfl

/-- A scalar takes no room. -/
theorem read_scalar {text : List Char} {token : Token} {v : Value} (htoken : (Token.read .used).Yields text (.ok token))
    (hv : ∀ list object, ofToken list object token = pure v) (room : Nat) : (read room).Yields text (.ok v) := by
  cases room with
  | zero => exact htoken.bind fun rest => by rw [hv]; rfl
  | succ room => exact htoken.bind fun rest => by rw [hv]; rfl

theorem read_list {room level : Nat} {items : List Value}
    (h : ∀ v ∈ items, (read room).Yields (v.writePretty (level + 1)) v.reread) :
    (read (room + 1)).Yields (writePretty level (.list items)) (reread (.list items)) := by
  intro w rest hw _
  obtain ⟨body, htext, hbody⟩ :=
    readList_enclosed (enclosed_bracketed _ _ level _) h fun v _ => opens_writePretty (level + 1) v
  rw [writePretty, writePrettyItems_eq, htext, read, reread, rereadItems_eq]
  refine (Reader.bind_ok (token_openList hw (body ++ rest))).trans ((Reader.bind_map (hbody rest)).trans ?_)
  cases items.mapM reread <;> rfl

theorem read_object {room level : Nat} {members : List (String × Value)}
    (h : ∀ m ∈ members, (read room).Yields (m.2.writePretty (level + 1)) m.2.reread) :
    (read (room + 1)).Yields (writePretty level (.object members)) (reread (.object members)) := by
  intro w rest hw _
  obtain ⟨body, htext, hbody⟩ := readMembers_enclosed
    (fun before key => do readColon; return (key, ← read room) :: before) Prod.fst
    (fun (m : String × Value) => ':' :: ' ' :: m.2.writePretty (level + 1))
    (fun before m => (m.2.reread.map (Prod.mk m.1)).map (· :: before)) (enclosed_bracketed _ _ level _) (by
      intro m hm before t ht
      have hread := h m hm [' '] t blank_space ht
      refine (Reader.bind_ok (readColon_cons blank_nil _)).trans ((Reader.bind_map hread).trans ?_)
      cases m.2.reread <;> rfl)
  rw [writePretty, writePrettyMembers_eq, htext, read, reread, rereadMembers_eq]
  have hobject : readObject .used (read room) (body ++ rest) =
      (members.mapM fun (m : String × Value) => m.2.reread.map (Prod.mk m.1)).map
        fun values => (values, rest) := by
    rw [readObject]
    refine (Reader.bind_map (hbody [] rest)).trans ?_
    rw [foldlM_cons_eq_mapM]
    cases members.mapM fun m => m.2.reread.map (Prod.mk m.1) with
    | error fault => rfl
    | ok values =>
      show Except.ok ((values.reverse ++ []).reverse, rest) = _
      rw [List.append_nil, List.reverse_reverse]
      rfl
  refine (Reader.bind_ok (token_openObject hw (body ++ rest))).trans ((Reader.bind_map hobject).trans ?_)
  cases members.mapM fun m => m.2.reread.map (Prod.mk m.1) <;> rfl

/-- A value without room for lists and objects is a scalar, and a scalar is read whatever the room. -/
theorem read_within_zero {v : Value} (level room : Nat) (h : v.Within 0) :
    (read room).Yields (v.writePretty level) v.reread := by
  cases v with
  | null => exact read_scalar Token.read_null (fun _ _ => rfl) room
  | boolean b => exact read_scalar (token_boolean b) (fun _ _ => rfl) room
  | number n => exact read_number room n
  | text s => exact read_scalar (fun w rest hw _ => token_writeText s hw rest) (fun _ _ => rfl) room
  | list items => exact h.elim
  | object members => exact h.elim

/-- **Trees**: a tree that fits the room is read as its `reread`. -/
theorem read_writePretty {room : Nat} {v : Value} (level : Nat) (h : v.Within room) :
    (read room).Yields (v.writePretty level) v.reread := by
  induction room generalizing v level with
  | zero => exact read_within_zero level 0 h
  | succ room ih =>
    cases v with
    | list items => exact read_list fun v hv => ih (level + 1) (h v hv)
    | object members => exact read_object fun m hm => ih (level + 1) (h m hm)
    | null | boolean | number | text => exact read_within_zero level (room + 1) trivial

end GateGrid.Json.Value
