import GateGrid.Json.Container
import GateGrid.Proofs.Json.Text

/-!
# Lists and objects read back

`Reader.iterate_separated` reads parts with commas between them, and any white space around. `readList_separated` and
`readMembers_separated` are its two cases: the items of a list come back in their order, and each member of an object
is handed over with its key. The first fault among the parts is the fault of the whole. `Enclosed` is the form of lists
and objects in any layout, the compact one and the one on several lines.
-/

namespace GateGrid.Json

/-! ### Separated parts -/

theorem intercalate_cons {α : Type} (sep first : List α) (parts : List (List α)) :
    sep.intercalate (first :: parts) = first ++ parts.flatMap (sep ++ ·) := by
  induction parts generalizing first with
  | nil => simp [List.intercalate]
  | cons part parts ih =>
    rw [List.intercalate_cons_cons, ih, List.flatMap_cons, List.append_assoc, List.append_assoc]

theorem ends_comma (rest : List Char) : Ends (',' :: rest) :=
  ends_cons (by decide)

namespace Reader

variable {β σ τ : Type}

/-- Parts between blanks, and a comma before each of them but the first. -/
theorem iterate_separated {step : σ → Reader (σ ⊕ τ)} {part : β → List Char} {w w' closing rest : List Char}
    {items : List β} {start : σ} (next : σ → β → Except Fault σ) (result : σ → τ) (Inv : σ → Prop)
    (hw : Blank w) (hw' : Blank w') (hends : Ends closing) (hne : closing ≠ [])
    (hinv : ∀ b ∈ items, ∀ s s', next s b = .ok s' → Inv s')
    (hfirst : ∀ b ∈ items, ∀ t, Ends t →
      step start (w ++ (part b ++ t)) = (next start b).map fun s' => (.inl s', t))
    (hnext : ∀ b ∈ items, ∀ s t, Inv s → Ends t →
      step s (',' :: (w ++ (part b ++ t))) = (next s b).map fun s' => (.inl s', t))
    (hclose : ∀ s v, (s = start ∨ Inv s) → Blank v → step s (v ++ closing) = .ok (.inr (result s), rest)) :
    iterate step start (w ++ ((',' :: w).intercalate (items.map part) ++ (w' ++ closing))) =
      (items.foldlM next start).map fun s => (result s, rest) := by
  cases items with
  | nil =>
    have hblank : Blank (w ++ w') := fun c hc => (List.mem_append.mp hc).elim (hw c) (hw' c)
    have hround := hclose start (w ++ w') (Or.inl rfl) hblank
    rw [List.append_assoc] at hround
    exact rounds_inr hround
  | cons b items =>
    -- the parts behind the first one, each with its comma
    have htail : Ends (items.flatMap (fun b => ',' :: (w ++ part b)) ++ (w' ++ closing)) := by
      cases items with
      | nil =>
        rw [List.flatMap_nil, List.nil_append]
        exact hends.blank_append hw'
      | cons b items => exact ends_comma _
    have htext : w ++ ((',' :: w).intercalate ((b :: items).map part) ++ (w' ++ closing)) =
        w ++ (part b ++ (items.flatMap (fun b => ',' :: (w ++ part b)) ++ (w' ++ closing))) := by
      rw [List.map_cons, intercalate_cons, List.flatMap_map, List.append_assoc]
      rfl
    have hround := hfirst b List.mem_cons_self _ htail
    rw [htext, List.foldlM_cons]
    cases hn : next start b with
    | error fault =>
      rw [hn] at hround
      exact rounds_error hround
    | ok s =>
      rw [hn] at hround
      refine (rounds_inl hround).trans ?_
      refine rounds_fold next result Inv Ends (fun b hb s s' _ h => hinv b (List.mem_cons_of_mem _ hb) s s' h)
        (fun b hb s t hs ht => ?_) (fun b hb t => ends_comma _) (hends.blank_append hw')
        (fun s hs => hclose s w' (Or.inr hs) hw') (hinv b List.mem_cons_self start s hn) ?_
      · rw [List.cons_append, List.append_assoc]
        exact hnext b (List.mem_cons_of_mem _ hb) s t hs ht
      · have hle : items.length ≤ (items.flatMap fun b => ',' :: (w ++ part b)).length :=
          length_le_flatMap fun b _ => List.cons_ne_nil _ _
        have hpos := List.length_pos_iff.mpr hne
        simp only [List.length_append]
        omega

end Reader

/-- The parts between brackets, with a comma and the same white space between any two of them. -/
def Enclosed (opening closing : Char) (parts : List (List Char)) (text : List Char) : Prop :=
  ∃ w w', Blank w ∧ Blank w' ∧ text = opening :: (w ++ ((',' :: w).intercalate parts ++ (w' ++ [closing])))

theorem enclosed_compact (opening closing : Char) (parts : List (List Char)) :
    Enclosed opening closing parts (opening :: [','].intercalate parts ++ [closing]) :=
  ⟨[], [], blank_nil, blank_nil, rfl⟩

/-! ### Lists -/

/-- The text of a value: it does not begin with white space or the end of a list. -/
def Opens (text : List Char) : Prop :=
  ∃ c t, text = c :: t ∧ isBlank c = false ∧ c ≠ ']'

theorem anotherItem_first {w text : List Char} (hw : Blank w) (h : Opens text) (rest : List Char) :
    anotherItem .used true (w ++ (text ++ rest)) = .ok (true, text ++ rest) := by
  obtain ⟨c, t, rfl, hc, hne⟩ := h
  rw [List.cons_append, anotherItem, Reader.bind_ok (Reader.peekSolid_cons hw hc)]
  simp only [if_true]
  rfl

/-- Behind a comma there has to be an item. -/
theorem anotherItem_comma (text : List Char) :
    anotherItem .used false (',' :: text) =
      (do
        match ← Reader.peekSolid with
        | none => throw (.endOfText .value)
        | some ']' => throw .trailingComma
        | some _ => return true : Reader Bool) text :=
  rfl

theorem anotherItem_next {w text : List Char} (hw : Blank w) (h : Opens text) (rest : List Char) :
    anotherItem .used false (',' :: (w ++ (text ++ rest))) = .ok (true, text ++ rest) := by
  obtain ⟨c, t, rfl, hc, hne⟩ := h
  rw [List.cons_append, anotherItem_comma, Reader.bind_ok (Reader.peekSolid_cons hw hc)]
  simp only
  rfl

theorem anotherItem_end (first : Bool) {w : List Char} (hw : Blank w) (rest : List Char) :
    anotherItem .used first (w ++ ']' :: rest) = .ok (false, ']' :: rest) := by
  rw [anotherItem, Reader.bind_ok (Reader.peekSolid_cons hw rfl)]
  rfl

section Lists

variable {α β : Type} {item : Reader α} {w : List Char}

theorem listStep_first (hw : Blank w) {text t : List Char} {result : Except Fault α} (hopens : Opens text)
    (hitem : item.Yields text result) (ht : Ends t) :
    listStep .used item [] (w ++ (text ++ t)) = result.map fun a => (.inl [a], t) := by
  rw [listStep, List.isEmpty_nil, Reader.bind_ok (anotherItem_first hw hopens t)]
  refine (Reader.bind_map (hitem.apply ht)).trans ?_
  cases result <;> rfl

theorem listStep_next (hw : Blank w) {text t : List Char} {result : Except Fault α} {before : List α}
    (hbefore : before ≠ []) (hopens : Opens text) (hitem : item.Yields text result) (ht : Ends t) :
    listStep .used item before (',' :: (w ++ (text ++ t))) = result.map fun a => (.inl (a :: before), t) := by
  have hempty : before.isEmpty = false := by simpa using hbefore
  rw [listStep, hempty, Reader.bind_ok (anotherItem_next hw hopens t)]
  refine (Reader.bind_map (hitem.apply ht)).trans ?_
  cases result <;> rfl

theorem listStep_end (hw : Blank w) (before : List α) (rest : List Char) :
    listStep .used item before (w ++ ']' :: rest) = .ok (.inr before.reverse, rest) := by
  rw [listStep, Reader.bind_ok (anotherItem_end _ hw rest)]
  rfl

/-- **Lists**: the items come back in their order, or the first fault among them. -/
theorem readList_separated {part : β → List Char} {value : β → Except Fault α} {w' : List Char} {items : List β}
    (hw : Blank w) (hw' : Blank w') (hitem : ∀ b ∈ items, item.Yields (part b) (value b))
    (hopens : ∀ b ∈ items, Opens (part b)) (rest : List Char) :
    readList .used item (w ++ ((',' :: w).intercalate (items.map part) ++ (w' ++ ']' :: rest))) =
      (items.mapM value).map fun values => (values, rest) := by
  have hmap : ∀ (before : List α) (b : β) (t : List Char),
      ((value b).map fun a => ((.inl (a :: before), t) : (List α ⊕ List α) × List Char)) =
        ((value b).map (· :: before)).map fun s => (.inl s, t) := by
    intro before b t
    cases value b <;> rfl
  have hread : readList .used item (w ++ ((',' :: w).intercalate (items.map part) ++ (w' ++ ']' :: rest))) =
      (items.foldlM (fun s b => (value b).map (· :: s)) []).map fun s => (s.reverse, rest) := by
    refine Reader.iterate_separated _ List.reverse (· ≠ []) hw hw' (ends_cons (by decide)) (List.cons_ne_nil _ _)
      (fun b _ s s' h => ?_)
      (fun b hb t ht => (listStep_first hw (hopens b hb) (hitem b hb) ht).trans (hmap [] b t))
      (fun b hb s t hs ht => (listStep_next hw hs (hopens b hb) (hitem b hb) ht).trans (hmap s b t))
      (fun s v _ hv => listStep_end hv s rest)
    rcases hb : value b with fault | a
    · rw [hb] at h
      cases h
    · rw [hb] at h
      obtain rfl := Except.ok.inj h
      exact List.cons_ne_nil _ _
  rw [hread, foldlM_cons_eq_mapM]
  cases items.mapM value with
  | error fault => rfl
  | ok values => simp [Except.map]

/-- What stands behind the bracket that opens a list. -/
theorem readList_enclosed {part : β → List Char} {value : β → Except Fault α} {items : List β} {text : List Char}
    (htext : Enclosed '[' ']' (items.map part) text) (hitem : ∀ b ∈ items, item.Yields (part b) (value b))
    (hopens : ∀ b ∈ items, Opens (part b)) :
    ∃ body, text = '[' :: body ∧
      ∀ rest, readList .used item (body ++ rest) = (items.mapM value).map fun values => (values, rest) := by
  obtain ⟨w, w', hw, hw', rfl⟩ := htext
  refine ⟨_, rfl, fun rest => ?_⟩
  rw [← readList_separated hw hw' hitem hopens rest]
  simp only [List.append_assoc, List.cons_append, List.nil_append]

end Lists

/-! ### Objects -/

theorem anotherMember_first {w : List Char} (hw : Blank w) (rest : List Char) :
    anotherMember .used true (w ++ '"' :: rest) = .ok (true, '"' :: rest) := by
  rw [anotherMember, Reader.bind_ok (Reader.peekSolid_cons hw rfl)]
  rfl

/-- Behind a comma there has to be a key. -/
theorem anotherMember_comma (text : List Char) :
    anotherMember .used false (',' :: text) =
      (do
        match ← Reader.peekSolid with
        | none => throw (.endOfText .value)
        | some '\x7d' => throw .trailingComma
        | some c => if c = '"' then return true else throw .keyNotText : Reader Bool) text :=
  rfl

theorem anotherMember_next {w : List Char} (hw : Blank w) (rest : List Char) :
    anotherMember .used false (',' :: (w ++ '"' :: rest)) = .ok (true, '"' :: rest) := by
  rw [anotherMember_comma, Reader.bind_ok (Reader.peekSolid_cons hw rfl)]
  rfl

theorem anotherMember_end (first : Bool) {w : List Char} (hw : Blank w) (rest : List Char) :
    anotherMember .used first (w ++ '\x7d' :: rest) = .ok (false, '\x7d' :: rest) := by
  rw [anotherMember, Reader.bind_ok (Reader.peekSolid_cons hw rfl)]
  rfl

theorem readColon_cons {w : List Char} (hw : Blank w) (rest : List Char) :
    readColon (w ++ ':' :: rest) = .ok ((), rest) := by
  rw [readColon, Reader.bind_ok (Reader.peekSolid_cons hw rfl)]
  rfl

section Objects

variable {σ β : Type} {member : σ → String → Reader σ}

/-- One member behind its quote. -/
theorem memberStep_quote {first : Bool} {s : σ} {key : String} {text behind t : List Char}
    {result : Except Fault σ}
    (hanother : anotherMember .used first text =
      .ok (true, '"' :: (key.toList.flatMap writeChar ++ '"' :: (behind ++ t))))
    (hmember : member s key (behind ++ t) = result.map fun s' => (s', t)) :
    memberStep .used member (first, s) text = result.map fun s' => (.inl (false, s'), t) := by
  rw [memberStep, Reader.bind_ok hanother]
  show (readText .used >>= fun key => member s key >>= fun s' => pure (Sum.inl (false, s')))
    (key.toList.flatMap writeChar ++ '"' :: (behind ++ t)) = _
  rw [Reader.bind_ok (readText_writeText key _)]
  refine (Reader.bind_map hmember).trans ?_
  cases result <;> rfl

theorem memberStep_end {w : List Char} (hw : Blank w) (state : Bool × σ) (rest : List Char) :
    memberStep .used member state (w ++ '\x7d' :: rest) = .ok (.inr state.2, rest) := by
  rw [memberStep, Reader.bind_ok (anotherMember_end _ hw rest)]
  rfl

/-- Members are handed over with their keys, in their order. -/
theorem readMembers_separated {key : β → String} {behind : β → List Char} {next : σ → β → Except Fault σ}
    {w w' : List Char} {items : List β} (hw : Blank w) (hw' : Blank w')
    (hmember : ∀ b ∈ items, ∀ s t, Ends t → member s (key b) (behind b ++ t) = (next s b).map fun s' => (s', t))
    (start : σ) (rest : List Char) :
    readMembers .used member start
        (w ++ ((',' :: w).intercalate (items.map fun b => writeText (key b) ++ behind b) ++ (w' ++ '\x7d' :: rest))) =
      (items.foldlM next start).map fun s => (s, rest) := by
  have htext : ∀ (b : β) (t : List Char), (writeText (key b) ++ behind b) ++ t =
      '"' :: ((key b).toList.flatMap writeChar ++ '"' :: (behind b ++ t)) := by
    intro b t
    simp [writeText]
  have hmap : ∀ (s : σ) (b : β) (t : List Char),
      ((next s b).map fun s' => ((.inl (false, s'), t) : ((Bool × σ) ⊕ σ) × List Char)) =
        ((next s b).map (Prod.mk false)).map fun s' => (.inl s', t) := by
    intro s b t
    cases next s b <;> rfl
  have hfold : ∀ (items : List β) (first : Bool) (s : σ),
      (items.foldlM (fun (s : Bool × σ) b => (next s.2 b).map (Prod.mk false)) (first, s)).map Prod.snd =
        items.foldlM next s := by
    intro items
    induction items with
    | nil => intro first s; rfl
    | cons b items ih =>
      intro first s
      rw [List.foldlM_cons, List.foldlM_cons]
      cases next s b with
      | error fault => rfl
      | ok s' => exact ih false s'
  have hread : readMembers .used member start
        (w ++ ((',' :: w).intercalate (items.map fun b => writeText (key b) ++ behind b) ++ (w' ++ '\x7d' :: rest))) =
      (items.foldlM (fun (s : Bool × σ) b => (next s.2 b).map (Prod.mk false)) (true, start)).map
        fun s => (s.2, rest) := by
    refine Reader.iterate_separated _ Prod.snd (fun s => s.1 = false) hw hw' (ends_cons (by decide))
      (List.cons_ne_nil _ _) (fun b _ s s' h => ?_) (fun b hb t ht => ?_) (fun b hb s t hs ht => ?_)
      (fun s v _ hv => memberStep_end hv s rest)
    · rcases hb : next s.2 b with fault | a
      · rw [hb] at h
        cases h
      · rw [hb] at h
        rw [← Except.ok.inj h]
    · rw [htext b t]
      exact (memberStep_quote (anotherMember_first hw _) (hmember b hb start t ht)).trans (hmap start b t)
    · obtain ⟨first, s⟩ := s
      obtain rfl := hs
      rw [htext b t]
      exact (memberStep_quote (anotherMember_next hw _) (hmember b hb s t ht)).trans (hmap s b t)
  rw [hread, ← hfold items true start]
  cases items.foldlM (fun (s : Bool × σ) b => (next s.2 b).map (Prod.mk false)) (true, start) <;> rfl

/-- What stands behind the bracket that opens an object. -/
theorem readMembers_enclosed (member : σ → String → Reader σ) (key : β → String) (behind : β → List Char)
    (next : σ → β → Except Fault σ) {items : List β} {text : List Char}
    (htext : Enclosed '\x7b' '\x7d' (items.map fun b => writeText (key b) ++ behind b) text)
    (hmember : ∀ b ∈ items, ∀ s t, Ends t → member s (key b) (behind b ++ t) = (next s b).map fun s' => (s', t)) :
    ∃ body, text = '\x7b' :: body ∧
      ∀ start rest, readMembers .used member start (body ++ rest) =
        (items.foldlM next start).map fun s => (s, rest) := by
  obtain ⟨w, w', hw, hw', rfl⟩ := htext
  refine ⟨_, rfl, fun start rest => ?_⟩
  rw [← readMembers_separated hw hw' hmember start rest]
  simp only [List.append_assoc, List.cons_append, List.nil_append]

end Objects

end GateGrid.Json
