import GateGrid.CommandLine.Interface
import GateGrid.Proofs.Except

/-!
# Verbosity on a command line

The options in front of a command ask for help, for the version or for more verbosity. `Invocation.exists_read_verbose`:
more of the last kind leave what the rest of the line asks for as it was.
-/

namespace GateGrid.CommandLine

variable {command : Option String} {g g' : Given}

/-- No option waits for a value or for its check. -/
def Given.Settled (g : Given) : Prop :=
  g.pending = none

/-- What follows is accepted whatever settled options have been given before, and it leaves them settled. -/
def Regardless (read : Given → Except Stop Given) : Prop :=
  ∀ g g', g.Settled → g'.Settled → ∀ next, read g = .ok next →
    next.Settled ∧ ∃ next', read g' = .ok next' ∧ next'.Settled

theorem regardless_of_throw (stop : Stop) : Regardless fun _ => .error stop :=
  fun _ _ _ _ _ h => nomatch h

theorem regardless_give {o : CommandOption} (ho : o ∈ interface.options) : Regardless fun g => g.give command o := by
  rintro ⟨options, pending⟩ ⟨options', pending'⟩ (rfl : pending = none) (rfl : pending' = none) next h
  obtain rfl | rfl | rfl : o = verboseOption ∨ o = helpOption ∨ o = versionOption := by simpa [interface] using ho
  · obtain rfl := Except.ok.inj h
    exact ⟨rfl, _, rfl, rfl⟩
  · cases h
  · cases h

theorem Regardless.bind {read read' : Given → Except Stop Given} (h : Regardless read) (h' : Regardless read') :
    Regardless fun g => read g >>= read' := by
  intro g g' hg hg' next hnext
  obtain ⟨middle, hr, hnext⟩ := Except.bind_eq_ok_iff.mp hnext
  obtain ⟨hmiddle, middle', hr', hmiddle'⟩ := h g g' hg hg' middle hr
  obtain ⟨hsettled, next', hnext', hsettled'⟩ := h' middle middle' hmiddle hmiddle' next hnext
  exact ⟨hsettled, next', Except.bind_eq_ok_iff.mpr ⟨middle', hr', hnext'⟩, hsettled'⟩

/-- No option in front of a command takes a value. -/
theorem kind_ne_value {o : CommandOption} (ho : o ∈ interface.options) (placeholder : String) :
    o.kind ≠ .value placeholder := by
  obtain rfl | rfl | rfl : o = verboseOption ∨ o = helpOption ∨ o = versionOption := by simpa [interface] using ho
  all_goals exact nofun

theorem regardless_readLong (name : String) (value : Option String) :
    Regardless fun g => readLong command interface.options g name value := by
  unfold readLong
  cases hfind : interface.options.find? (·.long == name) with
  | none => exact regardless_of_throw _
  | some o =>
    have ho := List.mem_of_find?_eq_some hfind
    simp only
    split
    · rename_i placeholder value hkind
      exact absurd hkind (kind_ne_value ho placeholder)
    · rename_i placeholder hkind
      exact absurd hkind (kind_ne_value ho placeholder)
    · exact regardless_of_throw _
    · exact regardless_give ho

theorem regardless_readShort (letters : List Char) :
    Regardless fun g => readShort command interface.options g letters := by
  induction letters with
  | nil => exact fun g g' hg hg' next h => ⟨Except.ok.inj h ▸ hg, g', rfl, hg'⟩
  | cons c rest ih =>
    cases hfind : interface.options.find? (·.short == some c) with
    | none =>
      simp only [readShort, hfind]
      exact regardless_of_throw _
    | some o =>
      have ho := List.mem_of_find?_eq_some hfind
      have hread : (fun g => readShort command interface.options g (c :: rest)) =
          fun g => g.give command o >>= fun g => readShort command interface.options g rest := by
        funext g
        simp only [readShort, hfind]
        cases hkind : o.kind with
        | value placeholder => exact absurd hkind (kind_ne_value ho placeholder)
        | _ => rfl
      rw [hread]
      exact (regardless_give ho).bind ih

/-- Which command a line gives, and which options behind it, does not depend on the options in front of it. -/
theorem readFrom_of_settled {arguments : List String} {separated : Bool} {before behind : Given} {c : Command}
    (hg : g.Settled) (hg' : g'.Settled) (h : interface.readFrom g separated arguments = .ok (before, c, behind)) :
    ∃ before', interface.readFrom g' separated arguments = .ok (before', c, behind) := by
  induction arguments generalizing g g' separated with
  | nil => cases h
  | cons argument rest ih =>
    -- an argument that is read as options goes on with settled ones
    have hoptions : ∀ {read : Given → Except Stop Given}, Regardless read →
        (read g >>= fun g => interface.readFrom g false rest) = .ok (before, c, behind) →
        ∃ before', (read g' >>= fun g => interface.readFrom g false rest) = .ok (before', c, behind) := by
      intro read hread h
      obtain ⟨next, hr, h⟩ := Except.bind_eq_ok_iff.mp h
      obtain ⟨hnext, next', hr', hnext'⟩ := hread g g' hg hg' next hr
      obtain ⟨before', hbefore'⟩ := ih hnext hnext' h
      exact ⟨before', Except.bind_eq_ok_iff.mpr ⟨next', hr', hbefore'⟩⟩
    rw [Program.readFrom] at h ⊢
    by_cases hseparated : separated = true
    · rw [if_pos hseparated] at h
      cases h
    rw [if_neg hseparated] at h ⊢
    by_cases hhelp : argument = helpName
    · rw [if_pos hhelp] at h
      cases h
    rw [if_neg hhelp] at h ⊢
    cases hfound : interface.command? argument with
    | some found =>
      rw [hfound] at h
      obtain ⟨given, hbehind, heq⟩ := Except.map_eq_ok_iff.mp h
      obtain ⟨-, hsame⟩ := Prod.mk.inj heq
      exact ⟨g', Except.map_eq_ok_iff.mpr ⟨given, hbehind, congrArg (Prod.mk g') hsame⟩⟩
    | none =>
      rw [hfound] at h
      cases hargument : Argument.ofString argument with
      | separator =>
        rw [hargument] at h
        exact ih hg hg' h
      | long name value =>
        rw [hargument] at h
        exact hoptions (regardless_readLong name value) h
      | short letters =>
        rw [hargument] at h
        exact hoptions (regardless_readShort letters) h
      | plain =>
        rw [hargument] at h
        cases h

namespace Invocation

theorem exists_read_cons_verbose {arguments : List String} {v : Nat} {request : Request}
    (h : read arguments = .ok ⟨v, request⟩) : ∃ v', read ("-v" :: arguments) = .ok ⟨v', request⟩ := by
  have hfirst : interface.read ("-v" :: arguments) =
      interface.readFrom { options := [(verboseOption.long, "")] } false arguments := rfl
  obtain ⟨⟨before, c, behind⟩, hr, hrequest⟩ := Except.bind_eq_ok_iff.mp h
  have hnothing : Given.Settled {} := rfl
  have hverbose : Given.Settled { options := [(verboseOption.long, "")] } := rfl
  obtain ⟨before', hbefore⟩ := readFrom_of_settled hnothing hverbose hr
  obtain ⟨-, rfl⟩ := Invocation.mk.inj (Except.pure_eq_ok_iff.mp hrequest)
  exact ⟨_, Except.bind_eq_ok_iff.mpr ⟨_, hfirst.trans hbefore, rfl⟩⟩

/-- **Verbosity asks for nothing else**: a line may start with any number of `-v`. -/
theorem exists_read_verbose {arguments : List String} {v : Nat} {request : Request}
    (h : read arguments = .ok ⟨v, request⟩) (k : Nat) :
    ∃ v', read (List.replicate k "-v" ++ arguments) = .ok ⟨v', request⟩ := by
  induction k with
  | zero => exact ⟨v, h⟩
  | succ k ih =>
    obtain ⟨v', hv'⟩ := ih
    exact exists_read_cons_verbose hv'

end Invocation

end GateGrid.CommandLine
