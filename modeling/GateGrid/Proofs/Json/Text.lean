import GateGrid.Json.Writer
import GateGrid.Proofs.Json.Reader

/-!
# Texts read back

A text between quotes is read as the text that was written: each character comes back from the escape it was given,
and no character but the closing quote ends the text.
-/

namespace GateGrid.Json

/-! ### Characters -/

theorem hexDigit?_digitChar : ∀ d < 16, hexDigit? (Nat.digitChar d) = some d := by
  decide

theorem readUnit_cons {a b c d : Char} {i j k l : Nat} (ha : hexDigit? a = some i) (hb : hexDigit? b = some j)
    (hc : hexDigit? c = some k) (hd : hexDigit? d = some l) (rest : List Char) :
    readUnit (a :: b :: c :: d :: rest) = .ok (((i * 16 + j) * 16 + k) * 16 + l, rest) := by
  have hget : (get : Reader (List Char)) (a :: b :: c :: d :: rest) =
      .ok (a :: b :: c :: d :: rest, a :: b :: c :: d :: rest) := rfl
  rw [readUnit, Reader.bind_ok hget]
  simp only [ha, hb, hc, hd]
  rfl

/-- The escape of a control character. Its unit is the character, which is no surrogate. -/
theorem readCodePoint_control {c : Char} (hc : c.toNat < 0x20) (rest : List Char) :
    readCodePoint .used ('0' :: '0' :: Nat.digitChar (c.toNat / 16) :: Nat.digitChar (c.toNat % 16) :: rest) =
      .ok (c, rest) := by
  have hzero : hexDigit? '0' = some 0 := rfl
  have hunit := readUnit_cons hzero hzero (hexDigit?_digitChar (c.toNat / 16) (by omega))
    (hexDigit?_digitChar (c.toNat % 16) (by omega)) rest
  have hsum : ((0 * 16 + 0) * 16 + c.toNat / 16) * 16 + c.toNat % 16 = c.toNat := by omega
  rw [hsum] at hunit
  have hlow : isLowSurrogate c.toNat = false := by
    simp only [isLowSurrogate, Bool.and_eq_false_iff, decide_eq_false_iff_not]
    omega
  have hhigh : isHighSurrogate c.toNat = false := by
    simp only [isHighSurrogate, Bool.and_eq_false_iff, decide_eq_false_iff_not]
    omega
  rw [readCodePoint, Reader.bind_ok hunit, hlow, hhigh, Char.ofNat_toNat]
  rfl

/-- A short escape stands for the character that it was written for. -/
theorem shortEscape?_of_escapeLetter? {c letter : Char} (h : escapeLetter? c = some letter) :
    shortEscape? letter = some c ∧ letter ≠ 'u' := by
  unfold escapeLetter? at h
  split at h <;> cases h <;> decide

/-- Quotes and backslashes are escaped. -/
theorem escapeLetter?_eq_none {c : Char} (h : escapeLetter? c = none) : c ≠ '"' ∧ c ≠ '\\' := by
  constructor <;> rintro rfl <;> cases h

/-- Only escapes that begin with `u` depend on the dialect. -/
theorem readEscape_short (dialect : Dialect) {letter : Char} (hu : letter ≠ 'u') (rest : List Char) :
    readEscape dialect (letter :: rest) =
      match shortEscape? letter with
      | some c => .ok (c, rest)
      | none => .error .unknownEscape := by
  rw [readEscape, Reader.bind_ok (rfl : Reader.next (letter :: rest) = .ok (some letter, rest))]
  cases h : shortEscape? letter <;> simp only [h] <;> rfl

theorem textStep_escape (dialect : Dialect) (before rest : List Char) :
    textStep dialect before ('\\' :: rest) = (readEscape dialect >>= fun c => pure (.inl (c :: before))) rest :=
  rfl

theorem textStep_plain (dialect : Dialect) (before : List Char) {c : Char} (hquote : c ≠ '"') (hslash : c ≠ '\\')
    (rest : List Char) :
    textStep dialect before (c :: rest) =
      if c.toNat < 0x20 then .error .controlCharacter else .ok (.inl (c :: before), rest) := by
  rw [textStep, Reader.bind_ok (rfl : Reader.next (c :: rest) = .ok (some c, rest))]
  by_cases hc : c.toNat < 0x20 <;> simp only [hc, if_true, if_false] <;> rfl

/-- Every character comes back. -/
theorem textStep_writeChar (before : List Char) (c : Char) (rest : List Char) :
    textStep .used before (writeChar c ++ rest) = .ok (.inl (c :: before), rest) := by
  unfold writeChar
  split
  · rename_i letter h
    obtain ⟨hshort, hu⟩ := shortEscape?_of_escapeLetter? h
    show textStep .used before ('\\' :: letter :: rest) = _
    have hescape : readEscape .used (letter :: rest) = .ok (c, rest) := by rw [readEscape_short .used hu, hshort]
    rw [textStep_escape, Reader.bind_ok hescape]
    rfl
  · rename_i h
    obtain ⟨hquote, hslash⟩ := escapeLetter?_eq_none h
    split
    · rename_i hc
      have hescape := readCodePoint_control hc rest
      show textStep .used before ('\\' :: 'u' :: '0' :: '0' :: _ :: _ :: rest) = _
      rw [textStep_escape]
      exact Reader.bind_ok hescape
    · rename_i hc
      exact (textStep_plain .used before hquote hslash rest).trans (if_neg hc)

/-! ### Texts -/

theorem writeChar_ne_nil (c : Char) : writeChar c ≠ [] := by
  unfold writeChar
  split
  · simp
  · split <;> simp

/-- The text behind its opening quote. -/
theorem readText_writeText (s : String) (rest : List Char) :
    readText .used (s.toList.flatMap writeChar ++ '"' :: rest) = .ok (s, rest) := by
  have hclock : s.toList.length < (' ' :: (s.toList.flatMap writeChar ++ '"' :: rest)).length := by
    have hle : s.toList.length ≤ (s.toList.flatMap writeChar).length :=
      length_le_flatMap fun c _ => writeChar_ne_nil c
    simp only [List.length_cons, List.length_append]
    omega
  have hiterate : Reader.iterate (textStep .used) [] (s.toList.flatMap writeChar ++ '"' :: rest) =
      .ok (s.toList, rest) := by
    show Reader.rounds _ _ _ _ = _
    rw [Reader.rounds_fold (fun before c => (Except.ok c).map (· :: before)) List.reverse (fun _ => True) (fun _ => True)
      (fun _ _ _ _ _ _ => trivial) (fun c _ before t _ _ => textStep_writeChar before c t) (fun _ _ _ => trivial)
      trivial (fun _ _ => rfl) trivial hclock, foldlM_cons_eq_mapM]
    have hchars : s.toList.mapM (Except.ok : Char → Except Fault Char) = .ok (s.toList.map id) := List.mapM_pure
    rw [hchars, List.map_id]
    show Except.ok ((s.toList.reverse ++ []).reverse, rest) = _
    rw [List.append_nil, List.reverse_reverse]
  rw [readText, Reader.bind_ok hiterate]
  show Except.ok (String.ofList s.toList, rest) = _
  rw [String.ofList_toList]

theorem token_quote {w : List Char} (hw : Blank w) (rest : List Char) :
    Token.read .used (w ++ '"' :: rest) = (readText .used >>= fun s => pure (.text s)) rest := by
  rw [Token.read_blank hw rfl]
  rfl

theorem token_writeText (s : String) {w : List Char} (hw : Blank w) (rest : List Char) :
    Token.read .used (w ++ (writeText s ++ rest)) = .ok (.text s, rest) := by
  have htext : writeText s ++ rest = '"' :: (s.toList.flatMap writeChar ++ '"' :: rest) := by
    simp [writeText]
  rw [htext, token_quote hw, Reader.bind_ok (readText_writeText s rest)]
  rfl

end GateGrid.Json
