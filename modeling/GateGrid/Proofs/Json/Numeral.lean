import GateGrid.Json.Record
import GateGrid.Json.Writer
import GateGrid.Proofs.Decimal.Digits
import GateGrid.Proofs.Json.Reader

/-!
# Numbers read back

* `Numeral.spelling`: the characters of a numeral. A numeral that is `WellSpelled` is read back from them.
* `Number.text_cases`: the written form of every number is such a spelling, or `null` for NaN and the infinities.
* `Token.read_nat`: the digits of a natural number below `2 ^ 64` are read as that number.
-/

namespace GateGrid.Json

/-- At least one digit, and nothing else. -/
def Digits (ds : List Char) : Prop :=
  ds ≠ [] ∧ ∀ c ∈ ds, c.isDigit = true

/-- A numeral of the format: a leading zero stands alone. -/
structure Numeral.WellSpelled (m : Numeral) : Prop where
  whole : Digits m.whole
  leading : m.whole = ['0'] ∨ m.whole.head? ≠ some '0'
  fraction : ∀ ds, m.fraction = some ds → Digits ds
  exponent : ∀ e, m.exponent = some e → Digits e.digits

/-! ### The parts of a numeral -/

def fractionSpelling : Option (List Char) → List Char
  | none => []
  | some ds => '.' :: ds

def exponentSpelling : Option Exponent → List Char
  | none => []
  | some e => 'e' :: (if e.negative then '-' else '+') :: e.digits

/-- The characters behind the sign. The exponent always has a sign of its own. -/
def Numeral.unsigned (m : Numeral) : List Char :=
  m.whole ++ (fractionSpelling m.fraction ++ exponentSpelling m.exponent)

/-- The characters of a numeral. -/
def Numeral.spelling (m : Numeral) : List Char :=
  (if m.negative then ['-'] else []) ++ m.unsigned

theorem Digits.cons_isDigit {ds : List Char} (h : Digits ds) : ∃ c t, ds = c :: t ∧ c.isDigit = true := by
  obtain ⟨c, t, rfl⟩ := List.exists_cons_of_ne_nil h.1
  exact ⟨c, t, rfl, h.2 c List.mem_cons_self⟩

theorem readDigits_append {ds rest : List Char} (h : Digits ds)
    (hrest : ∀ c, rest.head? = some c → c.isDigit = false) : readDigits .used (ds ++ rest) = .ok (ds, rest) := by
  obtain ⟨c, t, rfl, -⟩ := h.cons_isDigit
  rw [readDigits, Reader.bind_ok (Reader.takeWhile_append h.2 hrest)]
  rfl

theorem readWhole_append {ds rest : List Char} (h : Digits ds) (hlead : ds = ['0'] ∨ ds.head? ≠ some '0')
    (hrest : ∀ c, rest.head? = some c → c.isDigit = false) : readWhole .used (ds ++ rest) = .ok (ds, rest) := by
  rw [readWhole, Reader.bind_ok (readDigits_append h hrest)]
  rcases hlead with rfl | hne
  · rfl
  · split
    · exact absurd rfl hne
    · rfl

theorem readFraction_append {fraction : Option (List Char)} {rest : List Char}
    (h : ∀ ds, fraction = some ds → Digits ds)
    (hrest : ∀ c, rest.head? = some c → c.isDigit = false ∧ c ≠ '.') :
    readFraction .used (fractionSpelling fraction ++ rest) = .ok (fraction, rest) := by
  cases fraction with
  | none =>
    have hpeek : Reader.peek rest = .ok (rest.head?, rest) := rfl
    have hpoint : rest.head? ≠ some '.' := fun hc => (hrest _ hc).2 rfl
    show readFraction .used rest = _
    rw [readFraction, Reader.bind_ok hpeek, if_neg hpoint]
    rfl
  | some ds =>
    have hdigits := readDigits_append (h ds rfl) fun c hc => (hrest c hc).1
    show (readDigits .used >>= fun ds => pure (some ds)) (ds ++ rest) = _
    rw [Reader.bind_ok hdigits]
    rfl

theorem readExponent_append {exponent : Option Exponent} {rest : List Char}
    (h : ∀ e, exponent = some e → Digits e.digits) (hrest : Ends rest) :
    readExponent .used (exponentSpelling exponent ++ rest) = .ok (exponent, rest) := by
  cases exponent with
  | none =>
    cases rest with
    | nil => rfl
    | cons d rest =>
      have hmark := (hrest d rfl).2
      have he : d ≠ 'e' := fun h => hmark (by simp [h])
      have hE : d ≠ 'E' := fun h => hmark (by simp [h])
      show readExponent .used (d :: rest) = _
      rw [readExponent, Reader.bind_ok (rfl : Reader.peek (d :: rest) = .ok (some d, d :: rest))]
      simp only [List.head?_cons, Option.some.injEq, he, hE, imp_self]
      rfl
  | some e =>
    obtain ⟨negative, ds⟩ := e
    have hdigits := readDigits_append (h _ rfl) fun c hc => (hrest c hc).1
    cases negative with
    | true =>
      show (readDigits .used >>= fun ds => pure (some (⟨true, ds⟩ : Exponent))) (ds ++ rest) = _
      rw [Reader.bind_ok hdigits]
      rfl
    | false =>
      show (readDigits .used >>= fun ds => pure (some (⟨false, ds⟩ : Exponent))) (ds ++ rest) = _
      rw [Reader.bind_ok hdigits]
      rfl

/-- No digit stands behind the digits before the point, and no point behind the fraction. -/
theorem exponentSpelling_follows (exponent : Option Exponent) {rest : List Char} (hrest : Ends rest) :
    ∀ c, (exponentSpelling exponent ++ rest).head? = some c → c.isDigit = false ∧ c ≠ '.' := by
  intro c hc
  cases exponent with
  | none =>
    obtain ⟨hdigit, hmark⟩ := hrest c hc
    exact ⟨hdigit, fun h => hmark (by simp [h])⟩
  | some e =>
    obtain rfl := Option.some.inj hc
    decide

theorem fractionSpelling_follows (fraction : Option (List Char)) {rest : List Char}
    (hrest : ∀ c, rest.head? = some c → c.isDigit = false) :
    ∀ c, (fractionSpelling fraction ++ rest).head? = some c → c.isDigit = false := by
  intro c hc
  cases fraction with
  | none => exact hrest c hc
  | some ds =>
    obtain rfl := Option.some.inj hc
    rfl

/-! ### Numerals -/

/-- The parts behind the sign. -/
def readUnsigned (negative : Bool) : Reader Numeral := do
  return ⟨negative, ← readWhole .used, ← readFraction .used, ← readExponent .used⟩

theorem readNumeral_digit {c : Char} (hc : c.isDigit = true) (text : List Char) :
    readNumeral .used (c :: text) = readUnsigned false (c :: text) := by
  have hminus : (some c == some '-') = false := by
    rw [beq_eq_false_iff_ne]
    rintro h
    obtain rfl := Option.some.inj h
    cases hc
  rw [readNumeral, Reader.bind_ok (rfl : Reader.peek (c :: text) = .ok (some c, c :: text))]
  simp only [List.head?_cons, hminus]
  rfl

theorem readUnsigned_append {negative : Bool} {whole : List Char} {fraction : Option (List Char)}
    {exponent : Option Exponent} (h : Numeral.WellSpelled ⟨negative, whole, fraction, exponent⟩) {rest : List Char}
    (hrest : Ends rest) :
    readUnsigned negative (whole ++ (fractionSpelling fraction ++ (exponentSpelling exponent ++ rest))) =
      .ok (⟨negative, whole, fraction, exponent⟩, rest) := by
  have hexponent := exponentSpelling_follows exponent hrest
  have hfraction := fractionSpelling_follows fraction fun c hc => (hexponent c hc).1
  rw [readUnsigned, Reader.bind_ok (readWhole_append h.whole h.leading hfraction),
    Reader.bind_ok (readFraction_append h.fraction hexponent), Reader.bind_ok (readExponent_append h.exponent hrest)]
  rfl

/-- **Numerals**: what is spelled is read back, up to where it ends. -/
theorem readNumeral_spelling {m : Numeral} (h : m.WellSpelled) {rest : List Char} (hrest : Ends rest) :
    readNumeral .used (m.spelling ++ rest) = .ok (m, rest) := by
  obtain ⟨negative, whole, fraction, exponent⟩ := m
  have hunsigned := readUnsigned_append h hrest
  simp only [Numeral.spelling, Numeral.unsigned, List.append_assoc]
  cases negative with
  | true => exact hunsigned
  | false =>
    obtain ⟨c, t, ht, hc⟩ := h.whole.cons_isDigit
    dsimp only at ht
    subst ht
    exact (readNumeral_digit hc _).trans hunsigned

/-! ### Written numbers -/

theorem digits_toDigits (n : Nat) : Digits (Nat.toDigits 10 n) :=
  ⟨Nat.toDigits_ne_nil, fun _ hc => Decimal.isDigit_of_mem_toDigits hc⟩

theorem leading_toDigits (n : Nat) : Nat.toDigits 10 n = ['0'] ∨ (Nat.toDigits 10 n).head? ≠ some '0' := by
  rcases Nat.eq_zero_or_pos n with rfl | hn
  · exact Or.inl rfl
  · obtain ⟨d, ds, hd, hne⟩ := Decimal.toDigits_leading hn
    rw [hd]
    exact Or.inr fun h => hne (Option.some.inj h)

/-- The numeral of an integer. -/
theorem wellSpelled_toDigits (negative : Bool) (n : Nat) :
    Numeral.WellSpelled ⟨negative, Nat.toDigits 10 n, none, none⟩ :=
  ⟨digits_toDigits n, leading_toDigits n, nofun, nofun⟩

end GateGrid.Json

namespace GateGrid.Decimal.Significant.Normal

open GateGrid.Json (Digits Numeral)

variable {s : Significant}

theorem digits (hs : s.Normal) : Digits s.digits := by
  refine ⟨fun hnil => ?_, hs.isDigit⟩
  rcases hs.leading with rfl | ⟨d, ds, hd, -⟩
  · cases hnil
  · rw [hnil] at hd
    cases hd

/-- Zero is the digit `0` in front of the point; every other number has more than zeros there. -/
theorem head_ne (hs : s.Normal) (hzero : s ≠ ⟨['0'], 1⟩) : s.digits.head? ≠ some '0' := by
  rcases hs.leading with h | ⟨d, ds, hd, hne⟩
  · exact absurd h hzero
  · rw [hd]
    exact fun h => hne (Option.some.inj h)

theorem digits_zeros (n : Nat) : ∀ c ∈ List.replicate n '0', c.isDigit = true := by
  intro c hc
  rw [List.eq_of_mem_replicate hc]
  rfl

/-- The three ways around a point are numerals with a fraction. -/
theorem exists_positional (hs : s.Normal) :
    ∃ m : Numeral, m.WellSpelled ∧ m.unsigned = s.positional ".0" := by
  unfold Significant.positional
  split_ifs with h0 h1
  · refine ⟨⟨false, ['0'], some (List.replicate (-s.point).toNat '0' ++ s.digits), none⟩,
      ⟨⟨by simp, by simp⟩, Or.inl rfl, fun ds h => ?_, nofun⟩, ?_⟩
    · obtain rfl := Option.some.inj h
      refine ⟨by simp [hs.digits.1], fun c hc => ?_⟩
      rcases List.mem_append.mp hc with hc | hc
      · exact digits_zeros _ c hc
      · exact hs.isDigit c hc
    · simp [Numeral.unsigned, Json.fractionSpelling, Json.exponentSpelling]
  · refine ⟨⟨false, s.digits ++ List.replicate (s.point - s.digits.length).toNat '0', some ['0'], none⟩,
      ⟨⟨by simp [hs.digits.1], fun c hc => ?_⟩, ?_, fun ds h => ?_, nofun⟩, ?_⟩
    · rcases List.mem_append.mp hc with hc | hc
      · exact hs.isDigit c hc
      · exact digits_zeros _ c hc
    · by_cases hzero : s = ⟨['0'], 1⟩
      · rw [hzero]
        exact Or.inl rfl
      · right
        rw [List.head?_append_of_ne_nil _ hs.digits.1]
        exact hs.head_ne hzero
    · obtain rfl := Option.some.inj h
      exact ⟨by simp, by simp⟩
    · simp [Numeral.unsigned, Json.fractionSpelling, Json.exponentSpelling]
  · have hlong : s.point.toNat < s.digits.length := by omega
    refine ⟨⟨false, s.digits.take s.point.toNat, some (s.digits.drop s.point.toNat), none⟩,
      ⟨⟨?_, fun c hc => hs.isDigit c (List.mem_of_mem_take hc)⟩, Or.inr ?_, fun ds h => ?_, nofun⟩, ?_⟩
    · rw [← List.length_pos_iff, List.length_take]
      omega
    · rw [List.head?_take, if_neg (by omega)]
      refine hs.head_ne fun hzero => ?_
      rw [hzero] at hlong
      exact absurd hlong (by decide)
    · obtain rfl := Option.some.inj h
      refine ⟨?_, fun c hc => hs.isDigit c (List.mem_of_mem_drop hc)⟩
      rw [← List.length_pos_iff, List.length_drop]
      omega
    · simp [Numeral.unsigned, Json.fractionSpelling, Json.exponentSpelling]

/-- One digit, the others behind a point if there are any, and an exponent. -/
theorem exists_scientific (hs : s.Normal) :
    ∃ m : Numeral, m.WellSpelled ∧ m.unsigned = s.scientific := by
  obtain ⟨d, ds, hd, hdigit⟩ := hs.digits.cons_isDigit
  have hleading : [d] = ['0'] ∨ [d].head? ≠ some '0' := by
    by_cases h : d = '0'
    · exact Or.inl (by rw [h])
    · exact Or.inr fun hc => h (Option.some.inj hc)
  have hexponent : ∀ negative e, some (⟨negative, Nat.toDigits 10 (s.point - 1).natAbs⟩ : Json.Exponent) = some e →
      Digits e.digits := by
    rintro negative e h
    obtain rfl := Option.some.inj h
    exact Json.digits_toDigits _
  unfold Significant.scientific
  rw [hd]
  cases ds with
  | nil =>
    refine ⟨⟨false, [d], none, some ⟨s.point - 1 < 0, Nat.toDigits 10 (s.point - 1).natAbs⟩⟩,
      ⟨⟨by simp, by simpa using hdigit⟩, hleading, nofun, hexponent _⟩, ?_⟩
    simp [Numeral.unsigned, Json.fractionSpelling, Json.exponentSpelling]
  | cons d' ds =>
    refine ⟨⟨false, [d], some (d' :: ds), some ⟨s.point - 1 < 0, Nat.toDigits 10 (s.point - 1).natAbs⟩⟩,
      ⟨⟨by simp, by simpa using hdigit⟩, hleading, fun rest h => ?_, hexponent _⟩, ?_⟩
    · obtain rfl := Option.some.inj h
      exact ⟨by simp, fun c hc => hs.isDigit c (by rw [hd]; exact List.mem_cons_of_mem _ hc)⟩
    · simp [Numeral.unsigned, Json.fractionSpelling, Json.exponentSpelling]

end GateGrid.Decimal.Significant.Normal

namespace GateGrid.Json

theorem Numeral.WellSpelled.signed {m : Numeral} (h : m.WellSpelled) (negative : Bool) :
    Numeral.WellSpelled { m with negative } :=
  ⟨h.whole, h.leading, h.fraction, h.exponent⟩

/-- **Written numbers**: every number is written as a numeral, except NaN and the infinities. -/
theorem Number.text_cases (n : Number) :
    (∃ m : Numeral, m.WellSpelled ∧ n.text.toList = m.spelling) ∨ n.text = "null" := by
  cases n with
  | integer i =>
    left
    cases i with
    | ofNat k =>
      refine ⟨_, wellSpelled_toDigits false k, ?_⟩
      show (Nat.repr k).toList = _
      simp [Numeral.spelling, Numeral.unsigned, fractionSpelling, exponentSpelling]
    | negSucc k =>
      refine ⟨_, wellSpelled_toDigits true (k + 1), ?_⟩
      show ("-" ++ Nat.repr (k + 1)).toList = _
      simp [Numeral.spelling, Numeral.unsigned, fractionSpelling, exponentSpelling]
  | real x =>
    cases hx : Decimal.Binary.ofFloat? x with
    | none =>
      right
      simp only [Number.text, Decimal.Layout.render, hx, numberLayout]
      split_ifs <;> rfl
    | some b =>
      left
      have hmagnitude : ∃ m : Numeral, m.WellSpelled ∧ m.unsigned = numberLayout.magnitude b := by
        have hs := Decimal.Binary.significant_normal numberLayout.tie b
        unfold Decimal.Layout.magnitude
        dsimp only
        split_ifs
        · exact hs.exists_positional
        · exact hs.exists_scientific
      obtain ⟨m, hm, htext⟩ := hmagnitude
      refine ⟨_, hm.signed (Decimal.isNegative x), ?_⟩
      simp only [Number.text, Decimal.Layout.render, hx, String.toList_ofList, Numeral.spelling]
      rw [← htext]
      rfl

/-- JSON has no NaN and no infinities. -/
theorem Number.text_eq_null {x : Float} (h : x.isFinite = false) : (Number.real x).text = "null" := by
  simp only [Number.text, Decimal.Layout.render, Decimal.Binary.ofFloat?_eq_none h, numberLayout]
  split_ifs <;> rfl

/-! ### Tokens -/

theorem ne_of_isDigit {c : Char} (hc : c.isDigit = true) :
    c ≠ 'n' ∧ c ≠ 't' ∧ c ≠ 'f' ∧ c ≠ '"' ∧ c ≠ '[' ∧ c ≠ '\x7b' ∧ isBlank c = false := by
  refine ⟨?_, ?_, ?_, ?_, ?_, ?_, ?_⟩
  any_goals
    rintro rfl
    cases hc
  by_contra h
  have hdigit := (ends_of_isBlank (by simpa using h)).1
  rw [hc] at hdigit
  cases hdigit

theorem Token.read_digit {w : List Char} {c : Char} (hw : Blank w) (hc : c.isDigit = true) (text : List Char) :
    Token.read .used (w ++ c :: text) = (readNumeral .used >>= fun m => pure (.numeral m)) (c :: text) := by
  obtain ⟨hn, ht, hf, hquote, hlist, hobject, hblank⟩ := ne_of_isDigit hc
  rw [Token.read, Reader.bind_ok (Reader.peekSolid_cons hw hblank)]
  simp only [hc, or_true, if_true]

theorem Token.read_minus {w : List Char} (hw : Blank w) (text : List Char) :
    Token.read .used (w ++ '-' :: text) = (readNumeral .used >>= fun m => pure (.numeral m)) ('-' :: text) := by
  rw [Token.read_blank hw rfl]
  rfl

theorem Token.read_numeral {m : Numeral} (h : m.WellSpelled) :
    (Token.read .used).Yields m.spelling (.ok (.numeral m)) := by
  intro w rest hw hrest
  have hnumeral := readNumeral_spelling h hrest
  cases hm : m.negative with
  | true =>
    simp only [Numeral.spelling, hm, if_true, List.cons_append, List.nil_append] at hnumeral ⊢
    rw [Token.read_minus hw, Reader.bind_ok hnumeral]
    rfl
  | false =>
    obtain ⟨c, t, ht, hc⟩ := h.whole.cons_isDigit
    simp only [Numeral.spelling, Numeral.unsigned, hm, ht, List.cons_append, List.nil_append, Bool.false_eq_true,
      if_false] at hnumeral ⊢
    rw [Token.read_digit hw hc, Reader.bind_ok hnumeral]
    rfl

theorem Token.read_null : (Token.read .used).Yields "null".toList (.ok .null) := by
  intro w rest hw _
  show Token.read .used (w ++ 'n' :: 'u' :: 'l' :: 'l' :: rest) = _
  rw [Token.read_blank hw rfl]
  rfl

/-- A written number begins like a number or like `null`, and that is all of it. -/
theorem Token.read_number (n : Number) :
    ∃ token : Token, (Token.read .used).Yields n.text.toList (.ok token) ∧
      ((∃ m, token = .numeral m) ∨ token = .null) := by
  rcases n.text_cases with ⟨m, hm, htext⟩ | htext
  · rw [htext]
    exact ⟨_, Token.read_numeral hm, Or.inl ⟨m, rfl⟩⟩
  · rw [htext]
    exact ⟨_, Token.read_null, Or.inr rfl⟩

/-! ### Natural numbers -/

theorem digitsValue_toDigits (n : Nat) : digitsValue (Nat.toDigits 10 n) = n := by
  have h := @Nat.ofDigitChars_ten_toDigits n
  rw [Nat.ofDigitChars_eq_foldl] at h
  simpa only [digitsValue, digitValue, Nat.mul_comm] using h

/-- Digits that spell a 64-bit number all fit. -/
theorem takeFitting_eq {ds : List Char} {n : Nat}
    (h : ds.foldl (fun n c => n * 10 + digitValue c) n < UInt64.size) :
    takeFitting n ds = (ds.foldl (fun n c => n * 10 + digitValue c) n, []) := by
  induction ds generalizing n with
  | nil => rfl
  | cons c ds ih =>
    have hle : ∀ (ds : List Char) (n : Nat), n ≤ ds.foldl (fun n c => n * 10 + digitValue c) n := by
      intro ds
      induction ds with
      | nil => exact fun n => Nat.le_refl n
      | cons c ds ih => exact fun n => Nat.le_trans (by omega) (ih (n * 10 + digitValue c))
    rw [takeFitting, if_pos (Nat.lt_of_le_of_lt (hle ds _) h)]
    exact ih h

/-- Where nothing has been dropped, the digits have been read as the number that they spell. -/
theorem takeFitting_of_dropped_nil {ds : List Char} {n : Nat} (h : (takeFitting n ds).2 = []) :
    (takeFitting n ds).1 = ds.foldl (fun n c => n * 10 + digitValue c) n := by
  induction ds generalizing n with
  | nil => rfl
  | cons c ds ih =>
    rw [takeFitting] at h ⊢
    split_ifs at h ⊢
    exact ih h

theorem value?_toDigits {n : Nat} (h : n < UInt64.size) :
    Numeral.value? ⟨false, Nat.toDigits 10 n, none, none⟩ = some (.integer n) := by
  have hvalue := digitsValue_toDigits n
  have hfit : takeFitting 0 (Nat.toDigits 10 n) = (n, []) := by
    rw [takeFitting_eq (by rw [← digitsValue, hvalue]; exact h), ← digitsValue, hvalue]
  simp [Numeral.value?, hfit, Numeral.wholeValue]

theorem Token.read_nat (n : Nat) :
    (Token.read .used).Yields (Number.integer n).text.toList
      (.ok (.numeral ⟨false, Nat.toDigits 10 n, none, none⟩)) := by
  have htext : (Number.integer n).text.toList = Numeral.spelling ⟨false, Nat.toDigits 10 n, none, none⟩ := by
    show (Nat.repr n).toList = _
    simp [Numeral.spelling, Numeral.unsigned, fractionSpelling, exponentSpelling]
  rw [htext]
  exact Token.read_numeral (wellSpelled_toDigits false n)

theorem Number.toNatural32?_toNat (n : UInt32) : (Number.integer n.toNat).toNatural32? = some n := by
  have hlt : n.toNat < UInt32.size := n.toNat_lt
  simp [Number.toNatural32?, hlt]

/-- A 32-bit number is read as itself. -/
theorem readNatural32_yields (n : UInt32) :
    readNatural32.Yields (Number.integer n.toNat).text.toList (.ok n) := by
  have hlt : n.toNat < UInt32.size := n.toNat_lt
  have hvalue : Numeral.value? ⟨false, Nat.toDigits 10 n.toNat, none, none⟩ = some (.integer n.toNat) :=
    value?_toDigits (Nat.lt_trans hlt (by decide))
  refine (Token.read_nat n.toNat).bind fun rest => ?_
  simp only [Numeral.number, hvalue, pure_bind, Number.toNatural32?_toNat]
  rfl

/-! ### Numbers in a tree -/

/-- What is read where a number was written. -/
def Number.reread (n : Number) : Except Fault Value :=
  Reader.document (Value.read 0) n.text

/-- What is read does not depend on the room, and is a double wherever it is a number. -/
theorem Number.exists_reread (n : Number) :
    ∃ (result : Except Fault Value) (real : Except Fault Float),
      (∀ room, (Value.read room).Yields n.text.toList result) ∧
      readReal.Yields n.text.toList real ∧ real.toOption = result.toOption.bind Value.toReal? := by
  have hread : ∀ {token : Token} {result : Except Fault Value},
      (Token.read .used).Yields n.text.toList (.ok token) →
      (∀ list object rest, Value.ofToken list object token rest = result.map fun v => (v, rest)) →
      ∀ room, (Value.read room).Yields n.text.toList result := by
    intro token result htoken hresult room
    cases room with
    | zero => exact htoken.bind (hresult _ _)
    | succ room => exact htoken.bind (hresult _ _)
  obtain ⟨token, htoken, ⟨m, rfl⟩ | rfl⟩ := Token.read_number n
  · cases hm : m.value? with
    | none =>
      have hreal : readReal.Yields n.text.toList (.error .numberOutOfRange) :=
        htoken.bind fun rest => by simp only [Numeral.number, hm]; rfl
      refine ⟨.error .numberOutOfRange, _, hread htoken fun _ _ _ => ?_, hreal, rfl⟩
      simp only [Value.ofToken, Numeral.number, hm]
      rfl
    | some k =>
      have hreal : readReal.Yields n.text.toList (.ok k.toFloat) :=
        htoken.bind fun rest => by simp only [Numeral.number, hm]; rfl
      refine ⟨.ok (.number k), _, hread htoken fun _ _ _ => ?_, hreal, rfl⟩
      simp only [Value.ofToken, Numeral.number, hm]
      rfl
  · have hreal : readReal.Yields n.text.toList (.error (.wrongType .null "f64")) :=
      htoken.bind fun rest => rfl
    exact ⟨.ok .null, _, hread htoken fun _ _ _ => rfl, hreal, rfl⟩

/-- A number takes no room. -/
theorem Value.read_number (room : Nat) (n : Number) : (Value.read room).Yields n.text.toList n.reread := by
  obtain ⟨result, real, hread, -, -⟩ := n.exists_reread
  rw [Number.reread, (hread 0).document]
  exact hread room

/-- Behind white space and in front of more text, a number is read as it is when it stands alone. -/
theorem readReal_yields (n : Number) : readReal.Yields n.text.toList (Reader.document readReal n.text) := by
  obtain ⟨result, real, -, hreal, -⟩ := n.exists_reread
  rw [hreal.document]
  exact hreal

theorem Number.reread_real (n : Number) :
    (Reader.document readReal n.text).toOption = n.reread.toOption.bind Value.toReal? := by
  obtain ⟨result, real, hread, hreal, hsame⟩ := n.exists_reread
  rw [Number.reread, (hread 0).document, hreal.document]
  exact hsame

theorem Number.reread_nat {n : Nat} (h : n < UInt64.size) :
    (Number.integer n).reread = .ok (.number (.integer n)) := by
  refine Reader.Yields.document ((Token.read_nat n).bind fun rest => ?_)
  simp only [Value.ofToken, Numeral.number, value?_toDigits h]
  rfl

/-- NaN and the infinities come back as `null`. -/
theorem Number.reread_null {x : Float} (h : x.isFinite = false) : (Number.real x).reread = .ok .null := by
  rw [Number.reread, Number.text_eq_null h]
  exact Reader.Yields.document (Token.read_null.bind fun rest => rfl)

end GateGrid.Json
