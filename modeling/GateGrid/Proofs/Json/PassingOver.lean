import GateGrid.Proofs.Json.Literal
import GateGrid.Proofs.Json.Text

/-!
# Values that are passed over

* `Reader.Tracks n R r source`: on texts of at most `n` characters, wherever `source` reads something the reader `r`
  takes the same text and reads something that `R` relates to it. Both leave no more text than there was.
* `readText_tracks`: a text that is used can be passed over. A pair of surrogate escapes is then read as two characters.
* `passOver_decodes`: so can a whole literal. A text has no more open brackets than characters, so the clock of
  `passOver` does not run down.
-/

namespace GateGrid.Json

/-! ## Readers side by side -/

namespace Reader

variable {α β γ δ σ τ : Type} {n : Nat}

/-- On texts of at most `n` characters, the reader reads what `source` does, up to `R`. -/
def Tracks (n : Nat) (R : α → β → Prop) (r : Reader α) (source : Reader β) : Prop :=
  ∀ text b rest, text.length ≤ n → source text = .ok (b, rest) →
    ∃ a, R a b ∧ r text = .ok (a, rest) ∧ rest.length ≤ text.length

theorem Tracks.pure {R : α → β → Prop} {a : α} {b : β} (h : R a b) : Tracks n R (pure a) (pure b) := by
  intro text b' rest _ hsource
  obtain ⟨rfl, rfl⟩ := pure_eq_ok hsource
  exact ⟨a, h, rfl, Nat.le_refl _⟩

theorem Tracks.of_throw {R : α → β → Prop} {r : Reader α} {fault : Fault} : Tracks n R r (throw fault) := by
  intro text b rest _ hsource
  cases hsource

theorem Tracks.bind {R : α → β → Prop} {R' : γ → δ → Prop} {r : Reader α} {source : Reader β} {f : α → Reader γ}
    {g : β → Reader δ} (h : Tracks n R r source) (hf : ∀ a b, R a b → Tracks n R' (f a) (g b)) :
    Tracks n R' (r >>= f) (source >>= g) := by
  intro text d rest hn hsource
  obtain ⟨b, mid, hb, hd⟩ := bind_eq_ok hsource
  obtain ⟨a, hab, ha, hmid⟩ := h text b mid hn hb
  obtain ⟨c, hcd, hc, hrest⟩ := hf a b hab mid d rest (Nat.le_trans hmid hn) hd
  exact ⟨c, hcd, by rw [bind_ok ha, hc], Nat.le_trans hrest hmid⟩

/-- The parts that read the same thing. -/
theorem Tracks.bind_eq {R' : γ → δ → Prop} {r source : Reader α} {f : α → Reader γ} {g : α → Reader δ}
    (h : Tracks n Eq r source) (hf : ∀ a, Tracks n R' (f a) (g a)) : Tracks n R' (r >>= f) (source >>= g) :=
  h.bind fun a _ hab => hab ▸ hf a

/-- A reader tracks itself if it leaves no more text than there was. -/
theorem Tracks.refl {r : Reader α} (h : ∀ text a rest, r text = .ok (a, rest) → rest.length ≤ text.length) :
    Tracks n Eq r r :=
  fun text a rest _ hr => ⟨a, rfl, hr, h text a rest hr⟩

theorem peek_tracks : Tracks n Eq peek peek := by
  refine .refl fun text a rest h => ?_
  obtain ⟨-, rfl⟩ := Prod.mk.inj (Except.ok.inj h)
  exact Nat.le_refl _

theorem next_tracks : Tracks n Eq next next := by
  refine .refl fun text a rest h => ?_
  cases text with
  | nil =>
    obtain ⟨-, rfl⟩ := Prod.mk.inj (Except.ok.inj h)
    exact Nat.le_refl _
  | cons c text =>
    obtain ⟨-, rfl⟩ := Prod.mk.inj (Except.ok.inj h)
    exact Nat.le_succ _

theorem skip_tracks : Tracks n Eq skip skip := by
  refine .refl fun text a rest h => ?_
  obtain ⟨-, rfl⟩ := Prod.mk.inj (Except.ok.inj h)
  exact (List.tail_sublist text).length_le

theorem peekSolid_tracks : Tracks n Eq peekSolid peekSolid := by
  refine .refl fun text a rest h => ?_
  obtain ⟨-, rfl⟩ := Prod.mk.inj (Except.ok.inj h)
  exact (List.dropWhile_sublist _).length_le

theorem takeWhile_tracks (p : Char → Bool) : Tracks n Eq (takeWhile p) (takeWhile p) := by
  refine .refl fun text a rest h => ?_
  obtain ⟨-, rfl⟩ := Prod.mk.inj (Except.ok.inj h)
  exact (List.dropWhile_sublist _).length_le

/-- Loops track each other if their steps do. -/
theorem iterate_tracks {R : α → β → Prop} {S : σ → τ → Prop} {step : σ → Reader (σ ⊕ α)} {source : τ → Reader (τ ⊕ β)}
    (h : ∀ s t, S s t → Tracks n (Sum.LiftRel S R) (step s) (source t)) {s : σ} {t : τ} (hst : S s t) :
    Tracks n R (iterate step s) (iterate source t) := by
  have hrounds : ∀ clock s t, S s t → Tracks n R (rounds step clock s) (rounds source clock t) := by
    intro clock
    induction clock with
    | nil => exact fun _ _ _ => .of_throw
    | cons x clock ih =>
      intro s t hst text b rest hn hsource
      cases hstep : source t text with
      | error fault =>
        rw [rounds_error hstep] at hsource
        cases hsource
      | ok p =>
        obtain ⟨result, mid⟩ := p
        obtain ⟨result', hrel, hresult, hmid⟩ := h s t hst text result mid hn hstep
        cases hrel with
        | inl hst' =>
          rw [rounds_inl hstep] at hsource
          obtain ⟨a, hab, ha, hrest⟩ := ih _ _ hst' mid b rest (Nat.le_trans hmid hn) hsource
          exact ⟨a, hab, by rw [rounds_inl hresult, ha], Nat.le_trans hrest hmid⟩
        | inr hab =>
          rw [rounds_inr hstep] at hsource
          obtain ⟨rfl, rfl⟩ := Prod.mk.inj (Except.ok.inj hsource)
          exact ⟨_, hab, rounds_inr hresult, hmid⟩
  exact fun text b rest hn hsource => hrounds (' ' :: text) s t hst text b rest hn hsource

theorem discard_tracks {R : α → β → Prop} {r : Reader α} {source : Reader β} (h : Tracks n R r source) (g : β → γ) :
    Tracks n (fun _ _ => True) (discard r) (do return g (← source)) := by
  intro text c rest hn hsource
  obtain ⟨b, mid, hb, hg⟩ := bind_eq_ok hsource
  obtain ⟨-, rfl⟩ := pure_eq_ok hg
  obtain ⟨a, -, ha, hmid⟩ := h text b mid hn hb
  refine ⟨(), trivial, ?_, hmid⟩
  show (r text >>= fun p => pure ((), p.2)) = _
  rw [ha]
  rfl

end Reader

open Reader (Tracks)

/-! ## Texts -/

/-- To a reader that passes over a text, one character of it goes from `text` to `rest`. -/
def PassesOne (text rest : List Char) : Prop :=
  rest.length < text.length ∧ ∀ before, ∃ c, textStep .passedOver before text = .ok (.inl (c :: before), rest)

theorem readUnit_length {text rest : List Char} {unit : Nat} (h : readUnit text = .ok (unit, rest)) :
    rest.length < text.length := by
  have hget : (get : Reader (List Char)) text = .ok (text, text) := rfl
  rw [readUnit, Reader.bind_ok hget] at h
  rcases text with _ | ⟨a, _ | ⟨b, _ | ⟨c, _ | ⟨d, left⟩⟩⟩⟩
  case cons.cons.cons.cons =>
    cases ha : hexDigit? a <;> cases hb : hexDigit? b <;> cases hc : hexDigit? c <;> cases hd : hexDigit? d <;>
      simp only [ha, hb, hc, hd] at h
    case some.some.some.some =>
      obtain ⟨-, rfl⟩ := Prod.mk.inj (Except.ok.inj h)
      simp only [List.length_cons]
      omega
    all_goals cases h
  all_goals
    dsimp only at h
    split_ifs at h <;> cases h

theorem passesOne_unit {text rest : List Char} {unit : Nat} (h : readUnit text = .ok (unit, rest)) :
    PassesOne ('\\' :: 'u' :: text) rest := by
  refine ⟨?_, fun before => ⟨Char.ofNat unit, ?_⟩⟩
  · have hlength := readUnit_length h
    simp only [List.length_cons]
    omega
  · have hcode : readCodePoint .passedOver text = .ok (Char.ofNat unit, rest) := by
      rw [readCodePoint, Reader.bind_ok h]
      rfl
    show (readCodePoint .passedOver >>= fun c => pure (Sum.inl (c :: before))) text = _
    rw [Reader.bind_ok hcode]
    rfl

theorem readPairMark_eq_ok {mark : Char} {text rest : List Char} {u : Unit}
    (h : readPairMark mark text = .ok (u, rest)) : text = mark :: rest := by
  cases text with
  | nil => cases h
  | cons c text =>
    have hc : (if c ≠ mark then throw .unfinishedSurrogatePair else pure () : Reader Unit) text = .ok (u, rest) := h
    split_ifs at hc with hmark
    · cases hc
    · obtain ⟨-, rfl⟩ := Reader.pure_eq_ok hc
      rw [not_not.mp hmark]

/-- One escape, or two that form a pair. -/
theorem readCodePoint_eq_ok {text rest : List Char} {c : Char} (h : readCodePoint .used text = .ok (c, rest)) :
    (∃ unit, readUnit text = .ok (unit, rest)) ∨
      ∃ high low mid, readUnit text = .ok (high, '\\' :: 'u' :: mid) ∧ readUnit mid = .ok (low, rest) := by
  obtain ⟨unit, mid, hunit, h⟩ := Reader.bind_eq_ok h
  have hjoins : Dialect.used.joinsSurrogates = true := rfl
  rw [if_neg (not_not.mpr hjoins)] at h
  split_ifs at h with hlow hhigh
  · cases h
  · obtain ⟨⟨⟩, mid', hslash, h⟩ := Reader.bind_eq_ok h
    obtain ⟨⟨⟩, mid'', hu, h⟩ := Reader.bind_eq_ok h
    obtain ⟨low, left, hlow, h⟩ := Reader.bind_eq_ok h
    rw [readPairMark_eq_ok hslash, readPairMark_eq_ok hu] at hunit
    split_ifs at h
    · obtain ⟨-, rfl⟩ := Reader.pure_eq_ok h
      exact Or.inr ⟨unit, low, mid'', hunit, hlow⟩
    · cases h
  · obtain ⟨-, rfl⟩ := Reader.pure_eq_ok h
    exact Or.inl ⟨unit, hunit⟩

/-- A step that goes on in a text passes over one character, or over two that are a pair of surrogate escapes. -/
theorem textStep_inl {before before' text rest : List Char}
    (h : textStep .used before text = .ok (.inl before', rest)) :
    PassesOne text rest ∨ ∃ mid, PassesOne text mid ∧ PassesOne mid rest := by
  rcases text with _ | ⟨c, text⟩
  · cases h
  by_cases hquote : c = '"'
  · subst hquote
    cases h
  by_cases hslash : c = '\\'
  · subst hslash
    rw [textStep_escape] at h
    obtain ⟨d, mid, hescape, h⟩ := Reader.bind_eq_ok h
    obtain ⟨-, rfl⟩ := Reader.pure_eq_ok h
    rcases text with _ | ⟨letter, text⟩
    · cases hescape
    by_cases hu : letter = 'u'
    · subst hu
      rcases readCodePoint_eq_ok hescape with ⟨unit, hunit⟩ | ⟨high, low, mid', hhigh, hlow⟩
      · exact Or.inl (passesOne_unit hunit)
      · exact Or.inr ⟨_, passesOne_unit hhigh, passesOne_unit hlow⟩
    · have hsame := hescape
      rw [readEscape_short .used hu, ← readEscape_short .passedOver hu] at hsame
      rw [readEscape_short .used hu] at hescape
      split at hescape
      · obtain ⟨-, rfl⟩ := Prod.mk.inj (Except.ok.inj hescape)
        refine Or.inl ⟨by simp only [List.length_cons]; omega, fun before => ⟨d, ?_⟩⟩
        rw [textStep_escape, Reader.bind_ok hsame]
        rfl
      · cases hescape
  · rw [textStep_plain .used before hquote hslash] at h
    split_ifs at h with hc
    obtain ⟨-, rfl⟩ := Prod.mk.inj (Except.ok.inj h)
    exact Or.inl ⟨Nat.lt_succ_self _, fun before =>
      ⟨c, (textStep_plain .passedOver before hquote hslash text).trans (if_neg hc)⟩⟩

/-- Only a quote ends a text. -/
theorem textStep_inr {before chars text rest : List Char}
    (h : textStep .used before text = .ok (.inr chars, rest)) : text = '"' :: rest := by
  rcases text with _ | ⟨c, text⟩
  · cases h
  by_cases hquote : c = '"'
  · subst hquote
    obtain ⟨-, rfl⟩ := Prod.mk.inj (Except.ok.inj h)
    rfl
  by_cases hslash : c = '\\'
  · subst hslash
    rw [textStep_escape] at h
    obtain ⟨d, mid, -, h⟩ := Reader.bind_eq_ok h
    cases h
  · rw [textStep_plain .used before hquote hslash] at h
    split_ifs at h
    cases h

/-- The loop over the characters: its clock is only as long as the text, but no round takes nothing. -/
theorem rounds_textStep {clock before text chars rest : List Char}
    (h : Reader.rounds (textStep .used) clock before text = .ok (chars, rest)) (clock' before' : List Char)
    (hclock : text.length < clock'.length) :
    rest.length ≤ text.length ∧
      ∃ chars', Reader.rounds (textStep .passedOver) clock' before' text = .ok (chars', rest) := by
  induction clock generalizing clock' before before' text with
  | nil => cases h
  | cons x clock ih =>
    obtain ⟨y, clock', rfl⟩ := List.exists_cons_of_length_pos (Nat.zero_lt_of_lt hclock)
    rw [List.length_cons] at hclock
    cases hstep : textStep .used before text with
    | error fault =>
      rw [Reader.rounds_error hstep] at h
      cases h
    | ok p =>
      obtain ⟨next | result, mid⟩ := p
      · rw [Reader.rounds_inl hstep] at h
        rcases textStep_inl hstep with ⟨hshort, hone⟩ | ⟨mid', ⟨hshort, hone⟩, ⟨hshort', hone'⟩⟩
        · obtain ⟨c, hc⟩ := hone before'
          obtain ⟨hrest, hchars⟩ := ih h clock' (c :: before') (by omega)
          rw [Reader.rounds_inl hc]
          exact ⟨by omega, hchars⟩
        · have hpos : 0 < clock'.length := by omega
          obtain ⟨z, clock', rfl⟩ := List.exists_cons_of_length_pos hpos
          rw [List.length_cons] at hclock
          obtain ⟨c, hc⟩ := hone before'
          obtain ⟨c', hc'⟩ := hone' (c :: before')
          obtain ⟨hrest, hchars⟩ := ih h clock' (c' :: c :: before') (by omega)
          rw [Reader.rounds_inl hc, Reader.rounds_inl hc']
          exact ⟨by omega, hchars⟩
      · rw [Reader.rounds_inr hstep] at h
        obtain ⟨rfl, rfl⟩ := Prod.mk.inj (Except.ok.inj h)
        obtain rfl := textStep_inr hstep
        exact ⟨Nat.le_succ _, before'.reverse, rfl⟩

/-- **Texts**: what is used can be passed over. -/
theorem readText_tracks {n : Nat} : Tracks n (fun _ _ => True) (readText .passedOver) (readText .used) := by
  intro text s rest _ hsource
  obtain ⟨chars, mid, hchars, h⟩ := Reader.bind_eq_ok hsource
  obtain ⟨-, rfl⟩ := Reader.pure_eq_ok h
  obtain ⟨hrest, chars', hpassed⟩ := rounds_textStep hchars (' ' :: text) [] (Nat.lt_succ_self _)
  have hiterate : Reader.iterate (textStep .passedOver) [] text = .ok (chars', mid) := hpassed
  refine ⟨String.ofList chars', trivial, ?_, hrest⟩
  rw [readText, Reader.bind_ok hiterate]
  rfl

/-! ## Numerals and words -/

section Parts

variable {n : Nat}

theorem readDigits_tracks : Tracks n Eq (readDigits .passedOver) (readDigits .used) := by
  refine (Reader.takeWhile_tracks _).bind_eq fun digits => ?_
  cases digits with
  | nil =>
    -- the dialects differ in the fault
    intro text ds rest _ hsource
    obtain ⟨c, mid, -, h⟩ := Reader.bind_eq_ok hsource
    split_ifs at h <;> cases h
  | cons d ds => exact .pure rfl

theorem readWhole_tracks : Tracks n Eq (readWhole .passedOver) (readWhole .used) := by
  refine readDigits_tracks.bind_eq fun digits => ?_
  split
  · exact .of_throw
  · exact .pure rfl

theorem readFraction_tracks : Tracks n Eq (readFraction .passedOver) (readFraction .used) := by
  refine Reader.peek_tracks.bind_eq fun c => ?_
  split_ifs
  · exact Reader.skip_tracks.bind_eq fun _ => readDigits_tracks.bind_eq fun _ => .pure rfl
  · exact .pure rfl

theorem readExponent_tracks : Tracks n Eq (readExponent .passedOver) (readExponent .used) := by
  refine Reader.peek_tracks.bind_eq fun c => ?_
  have hdigits : ∀ negative : Bool, Tracks n Eq
      (do return some (⟨negative, ← readDigits .passedOver⟩ : Exponent))
      (do return some (⟨negative, ← readDigits .used⟩ : Exponent)) :=
    fun negative => readDigits_tracks.bind_eq fun _ => .pure rfl
  have hmark : Tracks n Eq
      (do
        Reader.skip
        let sign ← Reader.peek
        if sign = some '+' ∨ sign = some '-' then Reader.skip
        return some (⟨sign == some '-', ← readDigits .passedOver⟩ : Exponent))
      (do
        Reader.skip
        let sign ← Reader.peek
        if sign = some '+' ∨ sign = some '-' then Reader.skip
        return some (⟨sign == some '-', ← readDigits .used⟩ : Exponent)) := by
    refine Reader.skip_tracks.bind_eq fun _ => Reader.peek_tracks.bind_eq fun sign => ?_
    split_ifs
    · exact Reader.skip_tracks.bind_eq fun _ => hdigits _
    · exact hdigits _
  split
  · exact hmark
  · exact hmark
  · exact .pure rfl

theorem readNumeral_tracks : Tracks n Eq (readNumeral .passedOver) (readNumeral .used) := by
  have hparts : ∀ negative : Bool, Tracks n Eq
      (do return (⟨negative, ← readWhole .passedOver, ← readFraction .passedOver, ← readExponent .passedOver⟩ : Numeral))
      (do return (⟨negative, ← readWhole .used, ← readFraction .used, ← readExponent .used⟩ : Numeral)) :=
    fun negative => readWhole_tracks.bind_eq fun _ => readFraction_tracks.bind_eq fun _ =>
      readExponent_tracks.bind_eq fun _ => .pure rfl
  refine Reader.peek_tracks.bind_eq fun c => ?_
  dsimp only
  split_ifs
  · exact Reader.skip_tracks.bind_eq fun _ => hparts _
  · exact hparts _

theorem readWord_tracks (word : List Char) : Tracks n Eq (readWord word) (readWord word) := by
  induction word with
  | nil => exact .pure rfl
  | cons c word ih =>
    refine Reader.next_tracks.bind_eq fun d => ?_
    split
    · exact .of_throw
    · split_ifs
      · exact ih
      · exact .of_throw

/-- A token that is passed over opens what the token opens. -/
def Token.Opens (passed used : Token) : Prop :=
  (passed = .openList ↔ used = .openList) ∧ (passed = .openObject ↔ used = .openObject)

theorem Token.Opens.refl (token : Token) : Token.Opens token token :=
  ⟨Iff.rfl, Iff.rfl⟩

theorem Token.read_tracks : Tracks n Token.Opens (Token.read .passedOver) (Token.read .used) := by
  refine Reader.peekSolid_tracks.bind_eq fun c => ?_
  split
  · exact .of_throw
  · exact (readWord_tracks _).bind_eq fun _ => .pure (Token.Opens.refl _)
  · exact (readWord_tracks _).bind_eq fun _ => .pure (Token.Opens.refl _)
  · exact (readWord_tracks _).bind_eq fun _ => .pure (Token.Opens.refl _)
  · exact Reader.skip_tracks.bind_eq fun _ => readText_tracks.bind fun _ _ _ => .pure (by simp [Token.Opens])
  · exact Reader.skip_tracks.bind_eq fun _ => .pure (Token.Opens.refl _)
  · exact Reader.skip_tracks.bind_eq fun _ => .pure (Token.Opens.refl _)
  · split_ifs
    · exact readNumeral_tracks.bind_eq fun _ => .pure (Token.Opens.refl _)
    · exact .of_throw

/-! ## Lists and objects -/

theorem anotherItem_tracks (first : Bool) : Tracks n Eq (anotherItem .passedOver first) (anotherItem .used first) := by
  refine Reader.peekSolid_tracks.bind_eq fun c => ?_
  split
  · exact .of_throw
  · exact .pure rfl
  · split_ifs
    · exact .pure rfl
    · refine Reader.skip_tracks.bind_eq fun _ => Reader.peekSolid_tracks.bind_eq fun d => ?_
      split
      · exact .of_throw
      · exact .of_throw
      · exact .pure rfl
    · exact .of_throw

theorem closeList_tracks : Tracks n Eq closeList closeList := by
  refine Reader.peekSolid_tracks.bind_eq fun c => ?_
  split
  · exact .of_throw
  · exact Reader.skip_tracks
  · refine Reader.skip_tracks.bind_eq fun _ => Reader.peekSolid_tracks.bind_eq fun d => ?_
    split_ifs <;> exact .of_throw
  · exact .of_throw

theorem anotherMember_tracks (first : Bool) :
    Tracks n Eq (anotherMember .passedOver first) (anotherMember .used first) := by
  refine Reader.peekSolid_tracks.bind_eq fun c => ?_
  split
  · exact .of_throw
  · exact .pure rfl
  · split_ifs
    · exact .pure rfl
    · exact .of_throw
    · refine Reader.skip_tracks.bind_eq fun _ => Reader.peekSolid_tracks.bind_eq fun d => ?_
      split
      · exact .of_throw
      · exact .of_throw
      · split_ifs
        · exact .pure rfl
        · exact .of_throw
    · exact .of_throw

theorem readColon_tracks : Tracks n Eq readColon readColon := by
  refine Reader.peekSolid_tracks.bind_eq fun c => ?_
  split
  · exact .of_throw
  · split_ifs
    · exact Reader.skip_tracks
    · exact .of_throw

variable {α β : Type} {item : Reader α} {source : Reader β}

theorem readList_tracks (h : Tracks n (fun _ _ => True) item source) :
    Tracks n (fun _ _ => True) (readList .passedOver item) (readList .used source) := by
  refine Reader.iterate_tracks (S := fun before before' => before.isEmpty = before'.isEmpty) ?_ rfl
  intro before before' hempty
  have hanother := anotherItem_tracks (n := n) before'.isEmpty
  unfold listStep
  rw [hempty]
  refine hanother.bind_eq fun another => ?_
  cases another with
  | true => exact h.bind fun _ _ _ => .pure (.inl rfl)
  | false => exact closeList_tracks.bind_eq fun _ => .pure (.inr trivial)

theorem readObject_tracks (h : Tracks n (fun _ _ => True) item source) :
    Tracks n (fun _ _ => True) (readObject .passedOver item) (readObject .used source) := by
  refine Tracks.bind (R := fun _ _ => True) ?_ fun _ _ _ => .pure trivial
  refine Reader.iterate_tracks (S := fun state state' => state.1 = state'.1) ?_ rfl
  rintro ⟨first, before⟩ ⟨first', before'⟩ hfirst
  dsimp only at hfirst
  subst hfirst
  refine (anotherMember_tracks first).bind_eq fun another => ?_
  cases another with
  | true =>
    refine Reader.skip_tracks.bind_eq fun _ => readText_tracks.bind fun _ _ _ => ?_
    refine Tracks.bind (R := fun _ _ => True) ?_ fun _ _ _ => .pure (.inl rfl)
    exact readColon_tracks.bind_eq fun _ => h.bind fun _ _ _ => .pure trivial
  | false => exact Reader.skip_tracks.bind_eq fun _ => .pure (.inr trivial)

end Parts

/-! ## Literals -/

/-- A bracket is a character. -/
theorem Token.read_bracket {token : Token} {text rest : List Char} (h : Token.read .used text = .ok (token, rest))
    (htoken : token = .openList ∨ token = .openObject) : rest.length < text.length := by
  rw [Token.read, Reader.bind_ok (Reader.peekSolid_eq text)] at h
  have hdrop := (List.dropWhile_sublist (p := isBlank) (l := text)).length_le
  rcases hsolid : text.dropWhile isBlank with _ | ⟨c, left⟩
  · rw [hsolid] at h
    cases h
  rw [hsolid, List.length_cons] at hdrop
  rw [hsolid] at h
  have hskip : Reader.skip (c :: left) = .ok ((), left) := rfl
  generalize (c :: left).head? = next at h
  split at h
  case h_6 | h_7 =>
    rw [Reader.bind_ok hskip] at h
    obtain ⟨-, rfl⟩ := Reader.pure_eq_ok h
    omega
  case h_1 => cases h
  case h_5 =>
    rw [Reader.bind_ok hskip] at h
    obtain ⟨s, mid, -, h⟩ := Reader.bind_eq_ok h
    obtain ⟨rfl, -⟩ := Reader.pure_eq_ok h
    simp at htoken
  case h_8 =>
    split_ifs at h
    · obtain ⟨m, mid, -, h⟩ := Reader.bind_eq_ok h
      obtain ⟨rfl, -⟩ := Reader.pure_eq_ok h
      simp at htoken
    · cases h
  all_goals
    obtain ⟨-, mid, -, h⟩ := Reader.bind_eq_ok h
    obtain ⟨rfl, -⟩ := Reader.pure_eq_ok h
    simp at htoken

/-- A scalar is passed over by its token, and a bracket leaves as much of the clock as there is text behind it. -/
theorem passOverWithin_ofToken {clock : List Char} {list object : Reader Literal}
    (hlist : Tracks clock.tail.length (fun _ _ => True)
      (discard (readList .passedOver (passOverWithin clock.tail))) list)
    (hobject : Tracks clock.tail.length (fun _ _ => True)
      (discard (readObject .passedOver (passOverWithin clock.tail))) object) :
    Tracks clock.length (fun _ _ => True) (passOverWithin clock) (Token.read .used >>= Literal.ofToken list object) := by
  intro text lit rest hn hsource
  obtain ⟨token, mid, htoken, hlit⟩ := Reader.bind_eq_ok hsource
  rcases clock with _ | ⟨x, clock⟩
  · obtain rfl := List.length_eq_zero_iff.mp (Nat.le_zero.mp hn)
    cases htoken
  rw [List.length_cons] at hn
  obtain ⟨token', hopens, htoken', hmid⟩ := Token.read_tracks text token mid (Nat.le_refl _) htoken
  rw [passOverWithin, Reader.bind_ok htoken']
  cases token with
  | openList =>
    obtain rfl := hopens.1.mpr rfl
    have hshort := Token.read_bracket htoken (Or.inl rfl)
    obtain ⟨u, -, hu, hrest⟩ := hlist mid lit rest (Nat.le_of_lt_succ (Nat.lt_of_lt_of_le hshort hn)) hlit
    exact ⟨u, trivial, hu, Nat.le_trans hrest hmid⟩
  | openObject =>
    obtain rfl := hopens.2.mpr rfl
    have hshort := Token.read_bracket htoken (Or.inr rfl)
    obtain ⟨u, -, hu, hrest⟩ := hobject mid lit rest (Nat.le_of_lt_succ (Nat.lt_of_lt_of_le hshort hn)) hlit
    exact ⟨u, trivial, hu, Nat.le_trans hrest hmid⟩
  | null | boolean | numeral | text =>
    obtain ⟨-, rfl⟩ := Reader.pure_eq_ok hlit
    refine ⟨(), trivial, ?_, hmid⟩
    cases token' with
    | openList => cases hopens.1.mp rfl
    | openObject => cases hopens.2.mp rfl
    | null | boolean | numeral | text => rfl

/-- **Literals**: a clock that is as long as the text does not run down. -/
theorem passOverWithin_tracks (room : Nat) (clock : List Char) :
    Tracks clock.length (fun _ _ => True) (passOverWithin clock) (Literal.read room) := by
  induction room generalizing clock with
  | zero => exact passOverWithin_ofToken .of_throw .of_throw
  | succ room ih =>
    exact passOverWithin_ofToken (Reader.discard_tracks (readList_tracks (ih clock.tail)) Literal.list)
      (Reader.discard_tracks (readObject_tracks (ih clock.tail)) Literal.object)

/-- **Whatever is used can be passed over**, and takes the same text. -/
theorem passOver_decodes (room : Nat) : passOver.Decodes (Literal.read room) fun _ => some () := by
  intro text lit rest hsource
  obtain ⟨⟨⟩, -, hpass, -⟩ := passOverWithin_tracks room text text lit rest (Nat.le_refl _) hsource
  have hpassed : passOver text = .ok ((), rest) := hpass
  rw [hpassed]
  rfl

end GateGrid.Json
