import Mathlib.Init

/-!
# Chains of steps that can fail

What a chain in `Except` gives, step by step: it succeeds if every step does, and it fails as the first step that fails.
-/

namespace Except

variable {ε α β : Type} {x : Except ε α}

/-- A chain succeeds if its first step does and then the rest. -/
theorem bind_eq_ok_iff {f : α → Except ε β} {b : β} :
    (x >>= f) = .ok b ↔ ∃ a, x = .ok a ∧ f a = .ok b := by
  cases x <;> simp [bind, Except.bind]

/-- A chain fails as its first step, or behind it as the rest. -/
theorem bind_eq_error_iff {f : α → Except ε β} {e : ε} :
    (x >>= f) = .error e ↔ x = .error e ∨ ∃ a, x = .ok a ∧ f a = .error e := by
  cases x <;> simp [bind, Except.bind]

/-- A check in front gives nothing to the rest. -/
theorem check_bind_eq_ok_iff {check : Except ε Unit} {rest : Except ε β} {b : β} :
    (check >>= fun _ => rest) = .ok b ↔ check = .ok () ∧ rest = .ok b := by
  rw [bind_eq_ok_iff]
  exact ⟨fun ⟨(), h⟩ => h, fun h => ⟨(), h⟩⟩

theorem check_bind_eq_error_iff {check : Except ε Unit} {rest : Except ε β} {e : ε} :
    (check >>= fun _ => rest) = .error e ↔ check = .error e ∨ check = .ok () ∧ rest = .error e := by
  rw [bind_eq_error_iff]
  exact or_congr_right ⟨fun ⟨(), h⟩ => h, fun h => ⟨(), h⟩⟩

theorem pure_eq_ok_iff {a b : α} : (pure a : Except ε α) = .ok b ↔ a = b := by
  simp [pure, Except.pure]

theorem pure_ne_error {a : α} {e : ε} : (pure a : Except ε α) ≠ .error e := by
  simp [pure, Except.pure]

theorem map_eq_ok_iff {f : α → β} {b : β} : x.map f = .ok b ↔ ∃ a, x = .ok a ∧ f a = b := by
  cases x <;> simp [Except.map]

theorem map_eq_error_iff {f : α → β} {e : ε} : x.map f = .error e ↔ x = .error e := by
  cases x <;> simp [Except.map]

end Except
