import GateGrid.Json.Record
import GateGrid.Proofs.Except
import GateGrid.Proofs.Json.Numeral

/-!
# Readers that agree on a text

* `Literal`: a JSON tree with its numbers as they are spelled; `Literal.read` reads one and `Literal.value?` is the
  value that it stands for, if none of its numbers is out of range. Literals can be compared.
* `Reader.Decodes r source decode`: wherever `source` reads a `b`, the reader `r` takes the same text and gives
  `decode b`, or it fails where there is none. So what `r` makes of a text is said by a function on what stands there.
* `Reader.rounds_decodes`: two loops agree if their steps do.
* `readList_decodes`, `readMembers_decodes`: lists and objects, whatever their items and members are.
* `Literal.IsNatural32`: the literals of 32-bit numbers.
* `readNatural32_decodes`, `readString_decodes`, `Value.read_decodes`, ...: what the readers make of a literal.
-/

namespace GateGrid.Json

/-! ## Literals -/

/-- A JSON tree as it stands in a text. -/
inductive Literal where
  | null
  | boolean (value : Bool)
  | numeral (value : Numeral)
  | text (value : String)
  | list (items : List Literal)
  | object (members : List (String × Literal))

namespace Literal

/-- The literal that begins with a token. -/
def ofToken (list object : Reader Literal) : Token → Reader Literal
  | .null => return .null
  | .boolean b => return .boolean b
  | .numeral m => return .numeral m
  | .text s => return .text s
  | .openList => list
  | .openObject => object

/-- A literal inside which at most `room` lists and objects are open at once. -/
def read : (room : Nat) → Reader Literal
  | 0 => do ofToken (throw .nestedTooDeeply) (throw .nestedTooDeeply) (← Token.read .used)
  | room + 1 => do
    ofToken (return .list (← readList .used (read room))) (return .object (← readObject .used (read room)))
      (← Token.read .used)

mutual

/-- The value of a literal, unless one of its numbers is out of range. -/
def value? : Literal → Option Value
  | .null => some .null
  | .boolean b => some (.boolean b)
  | .numeral m => m.value?.map .number
  | .text s => some (.text s)
  | .list items => (itemValues? items).map .list
  | .object members => (memberValues? members).map .object

def itemValues? : List Literal → Option (List Value)
  | [] => some []
  | item :: rest => do return (← item.value?) :: (← itemValues? rest)

def memberValues? : List (String × Literal) → Option (List (String × Value))
  | [] => some []
  | (key, item) :: rest => do return (key, ← item.value?) :: (← memberValues? rest)

end

theorem itemValues?_eq (items : List Literal) : itemValues? items = items.mapM value? := by
  induction items with
  | nil => rfl
  | cons item rest ih => rw [itemValues?, ih, List.mapM_cons]

theorem memberValues?_eq (members : List (String × Literal)) :
    memberValues? members = members.mapM fun m => m.2.value?.map (Prod.mk m.1) := by
  induction members with
  | nil => rfl
  | cons m rest ih =>
    rw [memberValues?, ih, List.mapM_cons]
    cases m.2.value? <;> rfl

/-! ### Literals can be compared -/

mutual

/-- Whether two literals are the same. -/
def same : Literal → Literal → Bool
  | .null, .null => true
  | .boolean b, .boolean b' => b == b'
  | .numeral m, .numeral m' => m == m'
  | .text s, .text s' => s == s'
  | .list items, .list items' => sameItems items items'
  | .object members, .object members' => sameMembers members members'
  | _, _ => false

def sameItems : List Literal → List Literal → Bool
  | [], [] => true
  | item :: items, item' :: items' => same item item' && sameItems items items'
  | _, _ => false

def sameMembers : List (String × Literal) → List (String × Literal) → Bool
  | [], [] => true
  | (key, item) :: members, (key', item') :: members' => key == key' && same item item' && sameMembers members members'
  | _, _ => false

end

mutual

theorem same_iff : (lit lit' : Literal) → (same lit lit' = true ↔ lit = lit')
  | .null, lit' => by cases lit' <;> simp [same]
  | .boolean b, lit' => by cases lit' <;> simp [same]
  | .numeral m, lit' => by cases lit' <;> simp [same]
  | .text s, lit' => by cases lit' <;> simp [same]
  | .list items, lit' => by
    cases lit' with
    | list items' => simp [same, sameItems_iff items items']
    | _ => simp [same]
  | .object members, lit' => by
    cases lit' with
    | object members' => simp [same, sameMembers_iff members members']
    | _ => simp [same]

theorem sameItems_iff : (items items' : List Literal) → (sameItems items items' = true ↔ items = items')
  | [], items' => by cases items' <;> simp [sameItems]
  | item :: items, items' => by
    cases items' with
    | nil => simp [sameItems]
    | cons item' items' => simp [sameItems, same_iff item item', sameItems_iff items items']

theorem sameMembers_iff : (members members' : List (String × Literal)) →
    (sameMembers members members' = true ↔ members = members')
  | [], members' => by cases members' <;> simp [sameMembers]
  | (key, item) :: members, members' => by
    cases members' with
    | nil => simp [sameMembers]
    | cons member' members' =>
      obtain ⟨key', item'⟩ := member'
      simp [sameMembers, same_iff item item', sameMembers_iff members members', and_assoc]

end

instance : DecidableEq Literal := fun lit lit' =>
  decidable_of_iff (same lit lit' = true) (same_iff lit lit')

end Literal

/-! ## Agreement -/

namespace Reader

variable {α β γ σ τ : Type}

theorem bind_eq_ok {r : Reader α} {f : α → Reader β} {text : List Char} {p : β × List Char}
    (h : (r >>= f) text = .ok p) : ∃ a mid, r text = .ok (a, mid) ∧ f a mid = .ok p := by
  obtain ⟨⟨a, mid⟩, hr, hf⟩ := Except.bind_eq_ok_iff.mp h
  exact ⟨a, mid, hr, hf⟩

theorem pure_eq_ok {a b : α} {text rest : List Char} (h : (pure a : Reader α) text = .ok (b, rest)) :
    a = b ∧ text = rest :=
  Prod.mk.inj (Except.ok.inj h)

/-- Wherever `source` reads a `b`, the reader takes the same text and gives `decode b`, or it fails. -/
def Decodes (r : Reader α) (source : Reader β) (decode : β → Option α) : Prop :=
  ∀ text b rest, source text = .ok (b, rest) → (r text).toOption = (decode b).map fun a => (a, rest)

theorem toOption_eq_some {result : Except Fault α} {a : α} : result.toOption = some a ↔ result = .ok a := by
  cases result <;> simp [Except.toOption]

theorem toOption_eq_none {result : Except Fault α} : result.toOption = none ↔ ∃ fault, result = .error fault := by
  cases result <;> simp [Except.toOption]

theorem toOption_bind (r : Reader α) (f : α → Reader β) (text : List Char) :
    ((r >>= f) text).toOption = (r text).toOption.bind fun p => (f p.1 p.2).toOption := by
  cases h : r text with
  | error fault => rw [bind_error h]; rfl
  | ok p => rw [bind_ok h]; rfl

/-- Both readers begin with the same. -/
theorem Decodes.of_same {s : Reader γ} {f : γ → Reader α} {g : γ → Reader β} {decode : β → Option α}
    (h : ∀ c, (f c).Decodes (g c) decode) : (s >>= f).Decodes (s >>= g) decode := by
  intro text b rest hsource
  obtain ⟨c, mid, hs, hg⟩ := bind_eq_ok hsource
  rw [bind_ok hs]
  exact h c mid b rest hg

/-- The reader goes on without taking anything. -/
theorem Decodes.andThen {r : Reader α} {source : Reader β} {decode : β → Option α} (h : r.Decodes source decode)
    {f : α → Reader γ} {g : α → Option γ} (hf : ∀ a text, (f a text).toOption = (g a).map fun c => (c, text)) :
    (r >>= f).Decodes source fun b => (decode b).bind g := by
  intro text b rest hsource
  rw [toOption_bind, h text b rest hsource]
  show _ = ((decode b).bind g).map _
  cases decode b with
  | none => rfl
  | some a => exact hf a rest

theorem Decodes.map {r : Reader α} {source : Reader β} {decode : β → Option α} (h : r.Decodes source decode)
    {f : α → γ} : Decodes (do return f (← r)) source fun b => (decode b).map f := by
  intro text b rest hsource
  rw [toOption_bind, h text b rest hsource]
  show _ = ((decode b).map f).map _
  cases decode b <;> rfl

/-- What the source makes of it is taken apart again. -/
theorem Decodes.source {r : Reader α} {source : Reader β} {decode : β → Option α} (h : r.Decodes source decode)
    {g : β → γ} {decode' : γ → Option α} (hdecode : ∀ b, decode' (g b) = decode b) :
    r.Decodes (do return g (← source)) decode' := by
  intro text c rest hsource
  obtain ⟨b, mid, hb, hg⟩ := bind_eq_ok hsource
  obtain ⟨rfl, rfl⟩ := pure_eq_ok hg
  rw [hdecode]
  exact h text b mid hb

/-- Where the source gives nothing, there is nothing to agree on. -/
theorem Decodes.of_throw {r : Reader α} {fault : Fault} {decode : β → Option α} :
    r.Decodes (throw fault) decode := by
  intro text b rest h
  cases h

/-! ### Loops -/

/-- **Loops that agree.** `state` is the state of the one loop for a state of the other; where there is none the one
loop has failed, and then the other will not give a result that stands for anything. -/
theorem rounds_decodes {step : σ → Reader (σ ⊕ α)} {source : τ → Reader (τ ⊕ β)} {decode : β → Option α}
    (state : τ → Option σ)
    (hmore : ∀ s t text t' mid, state t = some s → source t text = .ok (.inl t', mid) →
      (step s text).toOption = (state t').map fun s' => (.inl s', mid))
    (hend : ∀ s t text b mid, state t = some s → source t text = .ok (.inr b, mid) →
      (step s text).toOption = (decode b).map fun a => (.inr a, mid))
    (hmore' : ∀ t text t' mid, state t = none → source t text = .ok (.inl t', mid) → state t' = none)
    (hend' : ∀ t text b mid, state t = none → source t text = .ok (.inr b, mid) → decode b = none)
    {clock text : List Char} {t : τ} {b : β} {rest : List Char} (h : rounds source clock t text = .ok (b, rest)) :
    (∀ s, state t = some s →
      (rounds step clock s text).toOption = (decode b).map fun a => (a, rest)) ∧
    (state t = none → decode b = none) := by
  induction clock generalizing text t with
  | nil => cases h
  | cons x clock ih =>
    cases hsource : source t text with
    | error fault =>
      rw [rounds_error hsource] at h
      cases h
    | ok p =>
      obtain ⟨t' | b', mid⟩ := p
      · rw [rounds_inl hsource] at h
        obtain ⟨hgo, hlost⟩ := ih h
        refine ⟨fun s hs => ?_, fun hs => hlost (hmore' t text t' mid hs hsource)⟩
        have hstep := hmore s t text t' mid hs hsource
        cases ht' : state t' with
        | none =>
          -- the one loop fails here
          rw [ht'] at hstep
          obtain ⟨fault, hfault⟩ := toOption_eq_none.mp hstep
          rw [rounds_error hfault, hlost ht']
          rfl
        | some s' =>
          rw [ht'] at hstep
          rw [rounds_inl (toOption_eq_some.mp hstep)]
          exact hgo s' ht'
      · rw [rounds_inr hsource] at h
        obtain ⟨rfl, rfl⟩ : b' = b ∧ mid = rest := by simpa using h
        refine ⟨fun s hs => ?_, fun hs => hend' t text b' mid hs hsource⟩
        have hstep := hend s t text b' mid hs hsource
        cases hb : decode b' with
        | none =>
          rw [hb] at hstep
          obtain ⟨fault, hfault⟩ := toOption_eq_none.mp hstep
          rw [rounds_error hfault]
          rfl
        | some a =>
          rw [hb] at hstep
          rw [rounds_inr (toOption_eq_some.mp hstep)]
          rfl

end Reader

/-! ## Lists and objects -/

section Containers

variable {α β σ τ : Type} {item : Reader α} {source : Reader β} {decode : β → Option α}

/-- A step of a list reads an item or finds the end. -/
theorem listStep_eq_ok {before : List β} {text rest : List Char} {next : List β ⊕ List β}
    (h : listStep .used source before text = .ok (next, rest)) :
    (∃ mid b, anotherItem .used before.isEmpty text = .ok (true, mid) ∧ source mid = .ok (b, rest) ∧
      next = .inl (b :: before)) ∨
    ∃ mid, anotherItem .used before.isEmpty text = .ok (false, mid) ∧ closeList mid = .ok ((), rest) ∧
      next = .inr before.reverse := by
  obtain ⟨another, mid, hanother, h⟩ := Reader.bind_eq_ok h
  cases another with
  | true =>
    obtain ⟨b, mid', hb, h⟩ := Reader.bind_eq_ok h
    obtain ⟨rfl, rfl⟩ := Reader.pure_eq_ok h
    exact Or.inl ⟨mid, b, hanother, hb, rfl⟩
  | false =>
    obtain ⟨⟨⟩, mid', hclose, h⟩ := Reader.bind_eq_ok h
    obtain ⟨rfl, rfl⟩ := Reader.pure_eq_ok h
    exact Or.inr ⟨mid, hanother, hclose, rfl⟩

theorem listStep_item {before : List α} {text mid : List Char}
    (h : anotherItem .used before.isEmpty text = .ok (true, mid)) :
    (listStep .used item before text).toOption = (item mid).toOption.map fun p => (.inl (p.1 :: before), p.2) := by
  rw [listStep, Reader.bind_ok h]
  show ((item >>= fun a => pure (Sum.inl (a :: before))) mid).toOption = _
  rw [Reader.toOption_bind]
  cases (item mid).toOption <;> rfl

theorem listStep_close {before : List α} {text mid rest : List Char}
    (h : anotherItem .used before.isEmpty text = .ok (false, mid)) (hclose : closeList mid = .ok ((), rest)) :
    listStep .used item before text = .ok (.inr before.reverse, rest) := by
  rw [listStep, Reader.bind_ok h]
  exact Reader.bind_ok hclose

/-- Items that have been read from the last to the first. -/
theorem mapM_reverse (decode : β → Option α) (items : List β) :
    items.reverse.mapM decode = (items.mapM decode).map List.reverse := by
  induction items with
  | nil => rfl
  | cons b items ih =>
    rw [List.reverse_cons, List.mapM_append, ih, List.mapM_cons, List.mapM_cons, List.mapM_nil]
    cases decode b <;> cases items.mapM decode <;> simp

theorem isEmpty_of_mapM {items : List β} {values : List α} (h : items.mapM decode = some values) :
    values.isEmpty = items.isEmpty := by
  cases items with
  | nil =>
    obtain rfl := Option.some.inj h
    rfl
  | cons b items =>
    rw [List.mapM_cons] at h
    obtain ⟨a, -, h⟩ := Option.bind_eq_some_iff.mp h
    obtain ⟨as, -, h⟩ := Option.bind_eq_some_iff.mp h
    obtain rfl := Option.some.inj h
    rfl

/-- **Lists**: the items stand for the items. -/
theorem readList_decodes (h : item.Decodes source decode) :
    (readList .used item).Decodes (readList .used source) fun items => items.mapM decode := by
  intro text items rest hsource
  refine (Reader.rounds_decodes (fun before : List β => before.mapM decode) ?_ ?_ ?_ ?_ hsource).1 [] rfl
  · intro before t text t' mid hbefore hstep
    rcases listStep_eq_ok hstep with ⟨mid', b, hanother, hb, ht'⟩ | ⟨mid', -, -, ht'⟩
    · obtain rfl := Sum.inl.inj ht'
      rw [← isEmpty_of_mapM hbefore] at hanother
      rw [listStep_item hanother, h mid' b mid hb, List.mapM_cons, hbefore]
      cases decode b <;> rfl
    · cases ht'
  · intro before t text items mid hbefore hstep
    rcases listStep_eq_ok hstep with ⟨mid', b, -, -, hitems⟩ | ⟨mid', hanother, hclose, hitems⟩
    · cases hitems
    · obtain rfl := Sum.inr.inj hitems
      rw [← isEmpty_of_mapM hbefore] at hanother
      rw [listStep_close hanother hclose, mapM_reverse, hbefore]
      rfl
  · intro t text t' mid hlost hstep
    rcases listStep_eq_ok hstep with ⟨mid', b, -, -, ht'⟩ | ⟨mid', -, -, ht'⟩
    · obtain rfl := Sum.inl.inj ht'
      rw [List.mapM_cons, hlost]
      cases decode b <;> rfl
    · cases ht'
  · intro t text items mid hlost hstep
    rcases listStep_eq_ok hstep with ⟨mid', b, -, -, hitems⟩ | ⟨mid', -, -, hitems⟩
    · cases hitems
    · obtain rfl := Sum.inr.inj hitems
      rw [mapM_reverse, hlost]
      rfl

variable {member : σ → String → Reader σ} {sourceMember : τ → String → Reader τ}

/-- A step of an object hands over a key or finds the end. -/
theorem memberStep_eq_ok {t : Bool × τ} {text rest : List Char} {next : (Bool × τ) ⊕ τ}
    (h : memberStep .used sourceMember t text = .ok (next, rest)) :
    (∃ mid mid' key t', anotherMember .used t.1 text = .ok (true, mid) ∧
      readText .used mid.tail = .ok (key, mid') ∧ sourceMember t.2 key mid' = .ok (t', rest) ∧
      next = .inl (false, t')) ∨
    ∃ mid, anotherMember .used t.1 text = .ok (false, mid) ∧ rest = mid.tail ∧ next = .inr t.2 := by
  obtain ⟨another, mid, hanother, h⟩ := Reader.bind_eq_ok h
  cases another with
  | true =>
    -- the quote is skipped
    have hquote : (readText .used >>= fun key => sourceMember t.2 key >>= fun t' => pure (.inl (false, t')))
        mid.tail = .ok (next, rest) := h
    obtain ⟨key, mid', hkey, h⟩ := Reader.bind_eq_ok hquote
    obtain ⟨t', mid'', ht', h⟩ := Reader.bind_eq_ok h
    obtain ⟨rfl, rfl⟩ := Reader.pure_eq_ok h
    exact Or.inl ⟨mid, mid', key, t', hanother, hkey, ht', rfl⟩
  | false =>
    have hbrace : (pure (.inr t.2) : Reader ((Bool × τ) ⊕ τ)) mid.tail = .ok (next, rest) := h
    obtain ⟨rfl, rfl⟩ := Reader.pure_eq_ok hbrace
    exact Or.inr ⟨mid, hanother, rfl, rfl⟩

theorem memberStep_key {s : Bool × σ} {text mid mid' : List Char} {key : String}
    (h : anotherMember .used s.1 text = .ok (true, mid)) (hkey : readText .used mid.tail = .ok (key, mid')) :
    (memberStep .used member s text).toOption =
      (member s.2 key mid').toOption.map fun p => (.inl (false, p.1), p.2) := by
  rw [memberStep, Reader.bind_ok h]
  show ((readText .used >>= fun key => member s.2 key >>= fun s' => pure (Sum.inl (false, s'))) mid.tail).toOption = _
  rw [Reader.bind_ok hkey, Reader.toOption_bind]
  cases (member s.2 key mid').toOption <;> rfl

theorem memberStep_close {s : Bool × σ} {text mid : List Char}
    (h : anotherMember .used s.1 text = .ok (false, mid)) :
    memberStep .used member s text = .ok (.inr s.2, mid.tail) := by
  rw [memberStep, Reader.bind_ok h]
  rfl

/-- **Objects**: the members stand for the members. -/
theorem readMembers_decodes {state : τ → Option σ}
    (h : ∀ s t key, state t = some s → (member s key).Decodes (sourceMember t key) state)
    (hlost : ∀ t key text t' mid, state t = none → sourceMember t key text = .ok (t', mid) → state t' = none)
    {s : σ} {t : τ} (hstart : state t = some s) :
    (readMembers .used member s).Decodes (readMembers .used sourceMember t) state := by
  intro text end' rest hsource
  have hflag : (state t).map (Prod.mk true) = some (true, s) := by rw [hstart]; rfl
  refine (Reader.rounds_decodes (fun t : Bool × τ => (state t.2).map (Prod.mk t.1)) ?_ ?_ ?_ ?_ hsource).1
    (true, s) hflag
  · intro s t text t' mid hst hstep
    obtain ⟨s', hs', rfl⟩ := Option.map_eq_some_iff.mp hst
    rcases memberStep_eq_ok hstep with ⟨mid', mid'', key, t'', hanother, hkey, hmember, ht'⟩ | ⟨mid', -, -, ht'⟩
    · obtain rfl := Sum.inl.inj ht'
      rw [memberStep_key (s := (t.1, s')) hanother hkey, h s' t.2 key hs' mid'' t'' mid hmember]
      cases state t'' <;> rfl
    · cases ht'
  · intro s t text t' mid hst hstep
    obtain ⟨s', hs', rfl⟩ := Option.map_eq_some_iff.mp hst
    rcases memberStep_eq_ok hstep with ⟨mid', mid'', key, t'', -, -, -, ht'⟩ | ⟨mid', hanother, rfl, ht'⟩
    · cases ht'
    · obtain rfl := Sum.inr.inj ht'
      rw [memberStep_close (s := (t.1, s')) hanother, hs']
      rfl
  · intro t text t' mid hst hstep
    rcases memberStep_eq_ok hstep with ⟨mid', mid'', key, t'', -, -, hmember, ht'⟩ | ⟨mid', -, -, ht'⟩
    · obtain rfl := Sum.inl.inj ht'
      exact Option.map_eq_none_iff.mpr (hlost t.2 key mid'' t'' mid (Option.map_eq_none_iff.mp hst) hmember)
    · cases ht'
  · intro t text t' mid hst hstep
    rcases memberStep_eq_ok hstep with ⟨mid', mid'', key, t'', -, -, -, ht'⟩ | ⟨mid', -, -, ht'⟩
    · cases ht'
    · obtain rfl := Sum.inr.inj ht'
      exact Option.map_eq_none_iff.mp hst

theorem readObject_decodes (h : item.Decodes source decode) :
    (readObject .used item).Decodes (readObject .used source) fun members =>
      members.mapM fun m => (decode m.2).map (Prod.mk m.1) := by
  have hmembers : Reader.Decodes
      (readMembers .used (fun before key => do readColon; return (key, ← item) :: before) [])
      (readMembers .used (fun before key => do readColon; return (key, ← source) :: before) [])
      (fun before : List (String × β) => before.mapM fun m => (decode m.2).map (Prod.mk m.1)) := by
    refine readMembers_decodes ?_ ?_ rfl
    · intro before t key hbefore
      refine Reader.Decodes.of_same fun _ => h.map.source fun b => ?_
      rw [List.mapM_cons, hbefore]
      cases decode b <;> rfl
    · intro t key text t' mid hlost hsource
      obtain ⟨-, mid', -, hsource⟩ := Reader.bind_eq_ok hsource
      obtain ⟨b, mid'', -, hsource⟩ := Reader.bind_eq_ok hsource
      obtain ⟨rfl, -⟩ := Reader.pure_eq_ok hsource
      rw [List.mapM_cons, hlost]
      cases decode b <;> rfl
  exact hmembers.map.source fun members => mapM_reverse _ members

end Containers

/-! ## Values of a known type -/

section Types

variable {α : Type}

theorem Reader.Decodes.of_pure {β : Type} {r : Reader α} {b : β} {decode : β → Option α}
    (h : ∀ text, (r text).toOption = (decode b).map fun a => (a, text)) : r.Decodes (pure b) decode := by
  intro text b' rest hsource
  obtain ⟨rfl, rfl⟩ := Reader.pure_eq_ok hsource
  exact h text

theorem Numeral.number_toOption (m : Numeral) (text : List Char) :
    (m.number text).toOption = m.value?.map fun n => (n, text) := by
  unfold Numeral.number
  cases m.value? <;> rfl

/-- A value of the wrong type is always a fault. -/
theorem Token.wrongType_toOption (token : Token) (expected : String) (text : List Char) :
    ((token.wrongType expected : Reader α) text).toOption = none := by
  cases token with
  | numeral m =>
    show ((m.number >>= fun n => throw (.wrongType (.number n) expected) : Reader α) text).toOption = none
    rw [Reader.toOption_bind]
    cases (m.number text).toOption <;> rfl
  | _ => rfl

/-- The literal that a token is, unless it opens one. -/
def Token.literal? : Token → Option Literal
  | .null => some .null
  | .boolean b => some (.boolean b)
  | .numeral m => some (.numeral m)
  | .text s => some (.text s)
  | .openList => none
  | .openObject => none

namespace Literal

/-- What a literal is that begins with a bracket. -/
theorem read_eq (room : Nat) : ∃ list object : Reader Literal,
    read room = (Token.read .used >>= ofToken list object) ∧
      (∀ text b rest, list text = .ok (b, rest) → ∃ items, b = .list items) ∧
      ∀ text b rest, object text = .ok (b, rest) → ∃ members, b = .object members := by
  cases room with
  | zero => exact ⟨_, _, rfl, fun _ _ _ h => (by cases h), fun _ _ _ h => (by cases h)⟩
  | succ room =>
    refine ⟨_, _, rfl, fun text b rest h => ?_, fun text b rest h => ?_⟩
    · obtain ⟨items, mid, -, h⟩ := Reader.bind_eq_ok h
      exact ⟨items, (Reader.pure_eq_ok h).1.symm⟩
    · obtain ⟨members, mid, -, h⟩ := Reader.bind_eq_ok h
      exact ⟨members, (Reader.pure_eq_ok h).1.symm⟩

/-- A reader that lets no brackets pass goes by the scalars. -/
theorem decodes_of_scalars {f : Token → Reader α} {decode : Literal → Option α} (room : Nat)
    (hscalar : ∀ token lit, token.literal? = some lit → ∀ text,
      (f token text).toOption = (decode lit).map fun a => (a, text))
    (hbracket : ∀ token, token.literal? = none → ∀ text, (f token text).toOption = none)
    (hlist : ∀ items, decode (.list items) = none) (hobject : ∀ members, decode (.object members) = none) :
    (Token.read .used >>= f).Decodes (read room) decode := by
  obtain ⟨list, object, hread, hlists, hobjects⟩ := read_eq room
  rw [hread]
  refine Reader.Decodes.of_same fun token => ?_
  cases token with
  | openList =>
    intro text b rest hsource
    obtain ⟨items, rfl⟩ := hlists text b rest hsource
    rw [hbracket _ rfl, hlist]
    rfl
  | openObject =>
    intro text b rest hsource
    obtain ⟨members, rfl⟩ := hobjects text b rest hsource
    rw [hbracket _ rfl, hobject]
    rfl
  | null | boolean | numeral | text => exact .of_pure (hscalar _ _ rfl)

/-- The integer of 32 bits that a literal is. -/
def natural32? : Literal → Option UInt32
  | .numeral m => m.value?.bind Number.toNatural32?
  | _ => none

def text? : Literal → Option String
  | .text s => some s
  | _ => none

def items? : Literal → Option (List Literal)
  | .list items => some items
  | _ => none

theorem text?_eq_some_iff {lit : Literal} {s : String} : lit.text? = some s ↔ lit = .text s := by
  cases lit <;> simp [text?]

theorem items?_eq_some_iff {lit : Literal} {items : List Literal} : lit.items? = some items ↔ lit = .list items := by
  cases lit <;> simp [items?]

/-- Digits that spell `n`, without sign, fraction and exponent. -/
def IsNatural32 (lit : Literal) (n : UInt32) : Prop :=
  ∃ m : Numeral, lit = .numeral m ∧ m.negative = false ∧ m.fraction = none ∧ m.exponent = none ∧
    digitsValue m.whole = n.toNat

theorem natural32?_eq_some_iff {lit : Literal} {n : UInt32} : lit.natural32? = some n ↔ lit.IsNatural32 n := by
  constructor
  · intro h
    cases lit with
    | numeral m =>
      obtain ⟨number, hvalue, hn⟩ := Option.bind_eq_some_iff.mp h
      cases number with
      | real x => cases hn
      | integer i =>
        simp only [Number.toNatural32?] at hn
        split_ifs at hn with hi
        obtain rfl := Option.some.inj hn
        simp only [Numeral.value?] at hvalue
        split_ifs at hvalue with hwhole
        · obtain ⟨hfraction, hexponent, hdropped⟩ := hwhole
          have hdigits := takeFitting_of_dropped_nil (List.isEmpty_iff.mp hdropped)
          have hwhole := Option.some.inj hvalue
          cases hnegative : m.negative with
          | true =>
            -- with a sign it is below zero or a double
            simp only [Numeral.wholeValue, hnegative, not_true, if_false] at hwhole
            split_ifs at hwhole with hrange
            obtain rfl := Number.integer.inj hwhole
            omega
          | false =>
            simp only [Numeral.wholeValue, hnegative, Bool.false_eq_true, not_false_iff, if_true] at hwhole
            obtain rfl := Number.integer.inj hwhole
            refine ⟨m, rfl, hnegative, Option.isNone_iff_eq_none.mp hfraction, Option.isNone_iff_eq_none.mp hexponent, ?_⟩
            rw [Int.toNat_natCast, UInt32.toNat_ofNat_of_lt' (by omega), hdigits]
            rfl
        · simp at hvalue
    | null | boolean | text | list | object => cases h
  · rintro ⟨m, rfl, hnegative, hfraction, hexponent, hwhole⟩
    have hsmall : digitsValue m.whole < UInt64.size := by
      rw [hwhole]
      exact Nat.lt_trans n.toNat_lt (by decide)
    have hvalue : m.value? = some (.integer n.toNat) := by
      have hfit : takeFitting 0 m.whole = (n.toNat, []) := by
        rw [takeFitting_eq hsmall, ← digitsValue, hwhole]
      simp [Numeral.value?, hfit, hfraction, hexponent, Numeral.wholeValue, hnegative]
    rw [natural32?, hvalue, Option.bind_some, Number.toNatural32?_toNat]

end Literal

theorem readNatural32_decodes (room : Nat) : readNatural32.Decodes (Literal.read room) Literal.natural32? := by
  refine Literal.decodes_of_scalars room (fun token lit htoken text => ?_) (fun token htoken text => ?_)
    (fun _ => rfl) fun _ => rfl
  · cases token with
    | numeral m =>
      obtain rfl := Option.some.inj htoken
      refine (Reader.toOption_bind m.number _ text).trans ?_
      rw [Numeral.number_toOption, Literal.natural32?]
      cases m.value? with
      | none => rfl
      | some number =>
        simp only [Option.map_some, Option.bind_some]
        cases hn : number.toNatural32? with
        | some n => rfl
        | none => cases number <;> rfl
    | null | boolean | text =>
      obtain rfl := Option.some.inj htoken
      exact Token.wrongType_toOption _ _ _
    | openList | openObject => cases htoken
  · cases token with
    | openList | openObject => exact Token.wrongType_toOption _ _ _
    | null | boolean | numeral | text => cases htoken

theorem readString_decodes (room : Nat) : readString.Decodes (Literal.read room) Literal.text? := by
  refine Literal.decodes_of_scalars room (fun token lit htoken text => ?_) (fun token htoken text => ?_)
    (fun _ => rfl) fun _ => rfl
  · cases token with
    | text s =>
      obtain rfl := Option.some.inj htoken
      rfl
    | null | boolean | numeral =>
      obtain rfl := Option.some.inj htoken
      exact Token.wrongType_toOption _ _ _
    | openList | openObject => cases htoken
  · cases token with
    | openList | openObject => exact Token.wrongType_toOption _ _ _
    | null | boolean | numeral | text => cases htoken

/-- A list of a known type inside a list or an object. -/
theorem readListOf_decodes {item : Reader α} {decode : Literal → Option α} {room : Nat}
    (h : item.Decodes (Literal.read room) decode) :
    (readListOf item).Decodes (Literal.read (room + 1)) fun lit => lit.items?.bind (·.mapM decode) := by
  refine Reader.Decodes.of_same fun token => ?_
  cases token with
  | openList =>
    intro text b rest hsource
    obtain ⟨items, mid, hitems, hb⟩ := Reader.bind_eq_ok hsource
    obtain ⟨rfl, rfl⟩ := Reader.pure_eq_ok hb
    exact readList_decodes h text items mid hitems
  | openObject =>
    intro text b rest hsource
    obtain ⟨members, mid, -, hb⟩ := Reader.bind_eq_ok hsource
    obtain ⟨rfl, rfl⟩ := Reader.pure_eq_ok hb
    exact Token.wrongType_toOption _ _ _
  | null | boolean | numeral | text => exact .of_pure fun text => Token.wrongType_toOption _ _ _

theorem Value.ofToken_decodes {list object : Reader Value} {listSource objectSource : Reader Literal}
    (hlist : list.Decodes listSource Literal.value?) (hobject : object.Decodes objectSource Literal.value?)
    (token : Token) :
    (ofToken list object token).Decodes (Literal.ofToken listSource objectSource token) Literal.value? := by
  cases token with
  | openList => exact hlist
  | openObject => exact hobject
  | numeral m =>
    refine .of_pure fun text => ?_
    simp only [Literal.value?, ofToken, Numeral.number]
    cases m.value? <;> rfl
  | null | boolean | text => exact .of_pure fun text => rfl

/-- **Values**: a literal is read as the value that it stands for. -/
theorem Value.read_decodes (room : Nat) : (Value.read room).Decodes (Literal.read room) Literal.value? := by
  induction room with
  | zero => exact Reader.Decodes.of_same fun token => ofToken_decodes .of_throw .of_throw token
  | succ room ih =>
    refine Reader.Decodes.of_same fun token => ofToken_decodes ?_ ?_ token
    · refine (readList_decodes ih).map.source fun items => ?_
      rw [Literal.value?, Literal.itemValues?_eq]
    · refine (readObject_decodes ih).map.source fun members => ?_
      rw [Literal.value?, Literal.memberValues?_eq]

end Types

end GateGrid.Json
