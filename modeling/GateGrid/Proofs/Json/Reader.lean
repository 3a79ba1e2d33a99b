import Mathlib.Data.List.Basic
import GateGrid.Json.Token

/-!
# Reading back what has been written

* `Blank w`: `w` is white space. `Ends rest`: `rest` does not go on with a number, so a value in front of it is over.
* `Reader.Yields r text result`: in front of every `rest` that ends it, and behind any white space, `r` takes `text`
  and gives `result`, a value or a fault.
* `Reader.rounds_fold`: a loop over the pieces of a text is a fold over what the pieces stand for.
-/

namespace GateGrid.Json

/-! ### White space and ends -/

/-- White space only. -/
def Blank (w : List Char) : Prop :=
  ∀ c ∈ w, isBlank c = true

/-- No number goes on here. -/
def Ends (rest : List Char) : Prop :=
  ∀ c, rest.head? = some c → c.isDigit = false ∧ c ∉ ['.', 'e', 'E']

theorem blank_nil : Blank [] :=
  fun _ h => absurd h List.not_mem_nil

theorem blank_space : Blank [' '] :=
  List.forall_mem_singleton.mpr rfl

theorem ends_nil : Ends [] :=
  fun _ h => absurd h (by simp)

theorem ends_cons {c : Char} {rest : List Char} (h : c.isDigit = false ∧ c ∉ ['.', 'e', 'E']) : Ends (c :: rest) := by
  intro d hd
  rw [← Option.some.inj hd]
  exact h

/-- White space ends a number. -/
theorem ends_of_isBlank {c : Char} (h : isBlank c = true) : c.isDigit = false ∧ c ∉ ['.', 'e', 'E'] := by
  simp only [isBlank, Bool.or_eq_true, beq_iff_eq] at h
  rcases h with ((rfl | rfl) | rfl) | rfl <;> decide

theorem Ends.blank_append {w rest : List Char} (hw : Blank w) (h : Ends rest) : Ends (w ++ rest) := by
  cases w with
  | nil => exact h
  | cons c w => exact ends_cons (ends_of_isBlank (hw c List.mem_cons_self))

/-- Behind white space, the next character that is none. -/
theorem dropWhile_blank_cons {w text : List Char} {c : Char} (hw : Blank w) (hc : isBlank c = false) :
    (w ++ c :: text).dropWhile isBlank = c :: text := by
  rw [List.dropWhile_append_of_pos hw, List.dropWhile_cons_of_neg (by simp [hc])]

/-! ### Lists of pieces -/

theorem length_le_flatMap {α β : Type} {f : α → List β} {l : List α} (h : ∀ a ∈ l, f a ≠ []) :
    l.length ≤ (l.flatMap f).length := by
  induction l with
  | nil => simp
  | cons a l ih =>
    have ha := List.length_pos_iff.mpr (h a List.mem_cons_self)
    have hl := ih fun b hb => h b (List.mem_cons_of_mem _ hb)
    rw [List.flatMap_cons, List.length_append, List.length_cons]
    omega

/-- Values that are put in front one by one end up in reverse. -/
theorem foldlM_cons_eq_mapM {α β : Type} (value : β → Except Fault α) (items : List β) (before : List α) :
    items.foldlM (fun s b => (value b).map (· :: s)) before =
      (items.mapM value).map fun values => values.reverse ++ before := by
  induction items generalizing before with
  | nil => rfl
  | cons b items ih =>
    rw [List.foldlM_cons, List.mapM_cons]
    cases hb : value b with
    | error fault => rfl
    | ok a =>
      show items.foldlM _ (a :: before) = _
      rw [ih]
      cases items.mapM value with
      | error fault => rfl
      | ok values => simp [bind, Except.bind, pure, Except.pure, Except.map]

namespace Reader

variable {α β σ τ : Type}

/-! ### Running readers -/

theorem bind_ok {r : Reader α} {f : α → Reader β} {text rest : List Char} {a : α} (h : r text = .ok (a, rest)) :
    (r >>= f) text = f a rest := by
  show (r text >>= fun p => f p.1 p.2) = _
  rw [h]
  rfl

theorem bind_error {r : Reader α} {f : α → Reader β} {text : List Char} {fault : Fault}
    (h : r text = .error fault) : (r >>= f) text = .error fault := by
  show (r text >>= fun p => f p.1 p.2) = _
  rw [h]
  rfl

/-- A reader that has given its result goes on with it. -/
theorem bind_map {r : Reader α} {f : α → Reader β} {text rest : List Char} {result : Except Fault α}
    (h : r text = result.map fun a => (a, rest)) : (r >>= f) text = result.bind fun a => f a rest := by
  cases result with
  | error fault => exact bind_error h
  | ok a => exact bind_ok h

theorem peekSolid_eq (text : List Char) :
    peekSolid text = .ok ((text.dropWhile isBlank).head?, text.dropWhile isBlank) :=
  rfl

theorem peekSolid_cons {w text : List Char} {c : Char} (hw : Blank w) (hc : isBlank c = false) :
    peekSolid (w ++ c :: text) = .ok (some c, c :: text) := by
  rw [peekSolid_eq, dropWhile_blank_cons hw hc]
  rfl

/-- The longest run of a class of characters stops where the class does. -/
theorem takeWhile_append {p : Char → Bool} {ds rest : List Char} (hds : ∀ c ∈ ds, p c = true)
    (hrest : ∀ c, rest.head? = some c → p c = false) : takeWhile p (ds ++ rest) = .ok (ds, rest) := by
  have htake : (ds ++ rest).takeWhile p = ds := by
    rw [List.takeWhile_append_of_pos hds]
    cases rest with
    | nil => simp
    | cons c rest => rw [List.takeWhile_cons_of_neg (by simp [hrest c rfl]), List.append_nil]
  have hdrop : (ds ++ rest).dropWhile p = rest := by
    rw [List.dropWhile_append_of_pos hds]
    cases rest with
    | nil => rfl
    | cons c rest => rw [List.dropWhile_cons_of_neg (by simp [hrest c rfl])]
  show Except.ok ((ds ++ rest).takeWhile p, (ds ++ rest).dropWhile p) = _
  rw [htake, hdrop]

/-! ### What a reader makes of a text -/

/-- In front of what ends it and behind white space, the reader takes the text and gives the result. -/
def Yields (r : Reader α) (text : List Char) (result : Except Fault α) : Prop :=
  ∀ w rest, Blank w → Ends rest → r (w ++ (text ++ rest)) = result.map fun a => (a, rest)

theorem Yields.apply {r : Reader α} {text rest : List Char} {result : Except Fault α} (h : r.Yields text result)
    (hrest : Ends rest) : r (text ++ rest) = result.map fun a => (a, rest) :=
  h [] rest blank_nil hrest

/-- A text that is read to its end is a document. -/
theorem Yields.document {r : Reader α} {text : String} {result : Except Fault α} (h : r.Yields text.toList result) :
    document r text = result := by
  have hr := h.apply ends_nil
  rw [List.append_nil] at hr
  show (r text.toList >>= _) = _
  rw [hr]
  cases result <;> rfl

/-- What goes on from the value that a text stands for takes nothing more. -/
theorem Yields.bind {r : Reader α} {f : α → Reader β} {text : List Char} {a : α} {result : Except Fault β}
    (h : r.Yields text (.ok a)) (hf : ∀ rest, f a rest = result.map fun b => (b, rest)) :
    (r >>= f).Yields text result := by
  intro w rest hw hrest
  rw [bind_ok (h w rest hw hrest)]
  exact hf rest

theorem Yields.map {r : Reader α} {f : α → β} {text : List Char} {result : Except Fault α} (h : r.Yields text result) :
    Yields (do return f (← r)) text (result.map f) := by
  intro w rest hw hrest
  rw [bind_map (h w rest hw hrest)]
  cases result <;> rfl

/-! ### Loops -/

theorem rounds_inl {step : σ → Reader (σ ⊕ α)} {clock text rest : List Char} {x : Char} {s s' : σ}
    (h : step s text = .ok (.inl s', rest)) : rounds step (x :: clock) s text = rounds step clock s' rest := by
  simp only [rounds, h]

theorem rounds_inr {step : σ → Reader (σ ⊕ α)} {clock text rest : List Char} {x : Char} {s : σ} {a : α}
    (h : step s text = .ok (.inr a, rest)) : rounds step (x :: clock) s text = .ok (a, rest) := by
  simp only [rounds, h]

theorem rounds_error {step : σ → Reader (σ ⊕ α)} {clock text : List Char} {x : Char} {s : σ} {fault : Fault}
    (h : step s text = .error fault) : rounds step (x :: clock) s text = .error fault := by
  simp only [rounds, h]

/-- **Loops are folds.** A round reads one piece and makes of it what `next` says, and the closing text ends the loop.
`Follows` is what has to stand behind a piece, `Inv` what holds of the state behind the first rounds. A clock that is
longer than the list of pieces does not run down. -/
theorem rounds_fold {step : σ → Reader (σ ⊕ τ)} {piece : β → List Char} {closing rest : List Char} {items : List β}
    (next : σ → β → Except Fault σ) (result : σ → τ) (Inv : σ → Prop) (Follows : List Char → Prop)
    (hinv : ∀ b ∈ items, ∀ s s', Inv s → next s b = .ok s' → Inv s')
    (hstep : ∀ b ∈ items, ∀ s t, Inv s → Follows t →
      step s (piece b ++ t) = (next s b).map fun s' => (.inl s', t))
    (hpiece : ∀ b ∈ items, ∀ t, Follows (piece b ++ t)) (hclosing : Follows closing)
    (hclose : ∀ s, Inv s → step s closing = .ok (.inr (result s), rest))
    {clock : List Char} {s : σ} (hs : Inv s) (hclock : items.length < clock.length) :
    rounds step clock s (items.flatMap piece ++ closing) =
      (items.foldlM next s).map fun s' => (result s', rest) := by
  induction items generalizing clock s with
  | nil =>
    obtain ⟨x, clock, rfl⟩ := List.exists_cons_of_length_pos hclock
    exact rounds_inr (hclose s hs)
  | cons b items ih =>
    obtain ⟨x, clock, rfl⟩ := List.exists_cons_of_length_pos (Nat.zero_lt_of_lt hclock)
    have hfollows : Follows (items.flatMap piece ++ closing) := by
      cases items with
      | nil => exact hclosing
      | cons b' items =>
        rw [List.flatMap_cons, List.append_assoc]
        exact hpiece b' (by simp) _
    have hround := hstep b List.mem_cons_self s _ hs hfollows
    rw [List.flatMap_cons, List.append_assoc, List.foldlM_cons]
    cases hn : next s b with
    | error fault =>
      rw [hn] at hround
      rw [rounds_error hround]
      rfl
    | ok s' =>
      rw [hn] at hround
      rw [rounds_inl hround]
      exact ih (fun b hb => hinv b (List.mem_cons_of_mem _ hb)) (fun b hb => hstep b (List.mem_cons_of_mem _ hb))
        (fun b hb => hpiece b (List.mem_cons_of_mem _ hb)) (hinv b List.mem_cons_self s s' hs hn)
        (by simpa using hclock)

end Reader

/-- White space in front of a value does not count. -/
theorem Token.read_blank {w : List Char} {c : Char} (hw : Blank w) (hc : isBlank c = false) (text : List Char) :
    Token.read .used (w ++ c :: text) = Token.read .used (c :: text) := by
  have hskip : Reader.peekSolid (w ++ c :: text) = .ok (some c, c :: text) := Reader.peekSolid_cons hw hc
  have hstay : Reader.peekSolid (c :: text) = .ok (some c, c :: text) := Reader.peekSolid_cons blank_nil hc
  rw [Token.read, Reader.bind_ok hskip, Reader.bind_ok hstay]

end GateGrid.Json
