import Mathlib.Data.List.DropRight
import Mathlib.Data.Nat.Digits.Defs
import GateGrid.Decimal.Layout

/-!
# Significant digits

The digits that a magnitude is written with: `Significant.Normal` says that they are decimal digits, that there is at
least one, and that the first is zero only for zero. `Binary.significant_normal` proves it of every float. NaN and the
infinities have no digits (`Binary.ofFloat?_eq_none`).
-/

namespace GateGrid.Decimal

/-! ### Decimal digits of a natural number -/

theorem isDigit_of_mem_toDigits {n : Nat} {c : Char} (h : c ∈ Nat.toDigits 10 n) : c.isDigit = true :=
  Nat.isDigit_of_mem_toDigits (by decide) (by decide) h

theorem digitChar_ne_zero : ∀ d < 10, 0 < d → Nat.digitChar d ≠ '0' := by
  decide

/-- A positive number has no leading zero. -/
theorem toDigits_leading {n : Nat} (h : 0 < n) :
    ∃ d ds, Nat.toDigits 10 n = d :: ds ∧ d ≠ '0' := by
  induction n using Nat.strong_induction_on with
  | _ n ih =>
    rw [Nat.toDigits_eq_if (by decide)]
    split
    · rename_i hlt
      exact ⟨_, [], rfl, digitChar_ne_zero n hlt h⟩
    · obtain ⟨d, ds, hd, hne⟩ := ih (n / 10) (by omega) (by omega)
      exact ⟨d, ds ++ [Nat.digitChar (n % 10)], by rw [hd]; rfl, hne⟩

/-- Zeros at the end go, a first digit that is none stays. -/
theorem dropZeros_leading {digits : List Char} {d : Char} {ds : List Char} (h : digits = d :: ds)
    (hd : d ≠ '0') : ∃ ds', (digits.reverse.dropWhile (· == '0')).reverse = d :: ds' := by
  have hpre : (digits.reverse.dropWhile (· == '0')).reverse <+: digits :=
    List.rdropWhile_prefix (· == '0') digits
  cases hr : (digits.reverse.dropWhile (· == '0')).reverse with
  | nil =>
    have hall := List.rdropWhile_eq_nil_iff.mp hr d (by rw [h]; exact List.mem_cons_self)
    exact absurd (by simpa using hall) hd
  | cons e ds' =>
    rw [hr, h] at hpre
    rw [(List.cons_prefix_cons.mp hpre).1]
    exact ⟨ds', rfl⟩

/-! ### The digits of a float -/

/-- Decimal digits, the first of them not zero unless the number is. -/
structure Significant.Normal (s : Significant) : Prop where
  isDigit : ∀ c ∈ s.digits, c.isDigit = true
  leading : s = ⟨['0'], 1⟩ ∨ ∃ d ds, s.digits = d :: ds ∧ d ≠ '0'

/-- A positional form holds digits, a point and the mark of a whole number. -/
theorem Significant.Normal.mem_positional {s : Significant} (hs : s.Normal) {wholeMark : String} {c : Char}
    (h : c ∈ s.positional wholeMark) : c.isDigit = true ∨ c = '.' ∨ c ∈ wholeMark.toList := by
  have hzero : ∀ n, c ∈ List.replicate n '0' → c.isDigit = true := by
    intro n hc
    rw [List.eq_of_mem_replicate hc]
    rfl
  unfold Significant.positional at h
  split_ifs at h with h0 h1
  · simp only [List.mem_append, List.mem_cons, List.not_mem_nil, or_false] at h
    rcases h with ((rfl | rfl) | h) | h
    · exact Or.inl rfl
    · exact Or.inr (Or.inl rfl)
    · exact Or.inl (hzero _ h)
    · exact Or.inl (hs.isDigit c h)
  · simp only [List.mem_append] at h
    rcases h with (h | h) | h
    · exact Or.inl (hs.isDigit c h)
    · exact Or.inl (hzero _ h)
    · exact Or.inr (Or.inr h)
  · simp only [List.mem_append, List.mem_singleton] at h
    rcases h with (h | rfl) | h
    · exact Or.inl (hs.isDigit c (List.mem_of_mem_take h))
    · exact Or.inr (Or.inl rfl)
    · exact Or.inl (hs.isDigit c (List.mem_of_mem_drop h))

theorem Scaled.significant_normal {d : Scaled} (h : 0 < d.count) : d.significant.Normal := by
  obtain ⟨x, xs, hx, hne⟩ := toDigits_leading h
  obtain ⟨ds, hds⟩ := dropZeros_leading hx hne
  refine ⟨fun c hc => ?_, Or.inr ⟨x, ds, hds, hne⟩⟩
  have hpre := List.rdropWhile_prefix (· == '0') (Nat.toDigits 10 d.count)
  exact isDigit_of_mem_toDigits (hpre.mem hc)

namespace Binary

/-- Zero is too far below every positive float to read back. -/
theorem count_pos_of_readsBack {x : Binary} (hx : 0 < x.significand) {d : Scaled} (h : x.ReadsBack d) :
    0 < d.count := by
  by_contra hzero
  have hlow : 0 < x.lowQuarters := by
    unfold lowQuarters
    split <;> omega
  have hlt : compareScaled d.count d.exponent x.lowQuarters (x.exponent - 2) = .lt := by
    simp only [compareScaled, Nat.eq_zero_of_not_pos hzero, Nat.zero_mul]
    refine Nat.compare_eq_lt.mpr (Nat.mul_pos (Nat.mul_pos hlow ?_) ?_)
    · exact Nat.pow_pos (by decide)
    · exact Nat.pow_pos (by decide)
  have hread := h.1
  simp [hlt] at hread

theorem count_pos_of_onGrid? {tie : Tie} {x : Binary} (hx : 0 < x.significand) {grid : Int} {d : Scaled}
    (h : x.onGrid? tie grid = some d) : 0 < d.count := by
  unfold onGrid? at h
  dsimp only at h
  split at h
  · rename_i hbelow _
    -- both neighbours read back: the nearer one is at least the lower one
    have hpos := count_pos_of_readsBack hx (of_decide_eq_true hbelow)
    obtain rfl := Option.some.inj h
    dsimp only at hpos ⊢
    unfold nearer
    dsimp only
    split
    · exact hpos
    · omega
    · omega
    · split <;> omega
  · rename_i hbelow _
    obtain rfl := Option.some.inj h
    exact count_pos_of_readsBack hx (of_decide_eq_true hbelow)
  · rename_i _ habove
    obtain rfl := Option.some.inj h
    exact count_pos_of_readsBack hx (of_decide_eq_true habove)
  · cases h

theorem count_shortest_pos (tie : Tie) {x : Binary} (hx : 0 < x.significand) :
    0 < (x.shortest tie).count := by
  unfold shortest
  cases h : (List.range 17).findSome? fun (n : Nat) => x.onGrid? tie (x.magnitude - 1 - n) with
  | none =>
    show 0 < x.significand * Nat.pow 2 x.exponent.toNat * Nat.pow 5 (-x.exponent).toNat
    exact Nat.mul_pos (Nat.mul_pos hx (Nat.pow_pos (by decide))) (Nat.pow_pos (by decide))
  | some d =>
    obtain ⟨n, -, hn⟩ := List.exists_of_findSome?_eq_some h
    exact count_pos_of_onGrid? hx hn

theorem significant_normal (tie : Tie) (x : Binary) : (x.significant tie).Normal := by
  unfold significant
  split
  · exact ⟨by simp, Or.inl rfl⟩
  · exact Scaled.significant_normal (count_shortest_pos tie (by omega))

end Binary

/-! ### NaN and the infinities -/

open Float.Model (UnpackedFloat)

/-- The exponent bits are all set. -/
theorem exponentBits_of_not_isFinite {x : Float} (h : x.isFinite = false) :
    @UnpackedFloat.unpackExponent .binary64 x.toBits.toBitVec = -1#_ := by
  by_contra hne
  have hfin : (UnpackedFloat.unpack .binary64 x.toBits.toBitVec).isFinite = true := by
    unfold UnpackedFloat.unpack
    rw [if_neg hne]
    by_cases hlow : @UnpackedFloat.unpackExponent .binary64 x.toBits.toBitVec = 0#_
    · rw [if_pos hlow]
      by_cases hzero : @UnpackedFloat.unpackMantissa .binary64 x.toBits.toBitVec = 0#_
      · rw [dif_pos hzero]
        rfl
      · rw [dif_neg hzero]
        rfl
    · rw [if_neg hlow]
      rfl
  have hx : x.isFinite = true := hfin
  rw [h] at hx
  cases hx

theorem Binary.ofFloat?_eq_none {x : Float} (h : x.isFinite = false) : Binary.ofFloat? x = none := by
  have hexp : ((x.toBits >>> 52) &&& 0x7FF).toNat = 0x7FF := by
    have hbits := congrArg BitVec.toNat (exponentBits_of_not_isFinite h)
    simp only [UnpackedFloat.unpackExponent, Nat.reduceAdd, Nat.add_one_sub_one, Nat.reduceSub, BitVec.cast_eq,
      BitVec.extractLsb_toNat, UInt64.toNat_toBitVec, Nat.reducePow, BitVec.reduceNeg, BitVec.toNat_ofNat,
      Nat.mod_succ] at hbits
    rw [UInt64.toNat_and, UInt64.toNat_shiftRight]
    exact (Nat.and_two_pow_sub_one_eq_mod _ 11).trans hbits
  unfold ofFloat?
  simp only [hexp, if_pos]

end GateGrid.Decimal
