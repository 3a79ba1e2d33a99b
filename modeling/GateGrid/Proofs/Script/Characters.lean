import GateGrid.Proofs.Decimal.Digits
import GateGrid.Proofs.Script.Blocks

/-!
# The characters of a script

Rows are letters, and a number of a header has none of the characters that separate the parts of a file
(`display_disjoint`). So the parts cannot be confused: `append_inj_of_mark` cuts a text at its first mark.
-/

namespace GateGrid

/-- The characters that separate the parts of a file. -/
def fileMarks : List Char :=
  [',', ':', '\n', ' ', '\x7b', '\x7d']

/-! ### Numbers of a header -/

open Decimal in
/-- The number style of headers is positional: digits around a point, or one of the three words. -/
theorem mem_display {x : Float} {c : Char} (h : c ∈ (display x).toList) :
    c.isDigit = true ∨ c ∈ ['.', '-', 'N', 'a', 'i', 'n', 'f'] := by
  simp only [display, Layout.render] at h
  split at h
  · rename_i b _
    rw [String.toList_ofList, List.mem_append] at h
    rcases h with h | h
    · split at h
      · rw [List.mem_singleton.mp h]
        exact Or.inr (by decide)
      · exact absurd h List.not_mem_nil
    · have hpos : c ∈ (b.significant Header.layout.tie).positional "" := h
      rcases (b.significant_normal Header.layout.tie).mem_positional hpos with hd | rfl | hw
      · exact Or.inl hd
      · exact Or.inr (by decide)
      · exact absurd hw (by simp)
  · have hwords : ∀ w ∈ ["NaN", "-inf", "inf"], ∀ c ∈ w.toList, c ∈ ['.', '-', 'N', 'a', 'i', 'n', 'f'] := by
      simp
    refine Or.inr ?_
    split at h
    · exact hwords "NaN" (by simp) c h
    split at h
    · exact hwords "-inf" (by simp) c h
    · exact hwords "inf" (by simp) c h

/-- No number of a header holds a mark of the file. -/
theorem display_disjoint (x : Float) : (display x).toList.Disjoint fileMarks := by
  have hdigit : ∀ m ∈ fileMarks, Char.isDigit m = false := by simp [fileMarks]
  have hword : ∀ m ∈ fileMarks, m ∉ ['.', '-', 'N', 'a', 'i', 'n', 'f'] := by simp [fileMarks]
  intro c h hm
  rcases mem_display h with hd | hd
  · exact Bool.false_ne_true ((hdigit c hm).symm.trans hd)
  · exact hword c hm hd

theorem Header.toList_text (h : Header) :
    h.text.toList = '\x7b' :: 'U' :: ' ' :: ((display h.first).toList ++ ' ' :: ((display h.second).toList ++
      ' ' :: ((display h.third).toList ++ ['\x7d']))) := by
  simp [Header.text, display]

/-- A header line is one line and holds no separator of blocks. -/
theorem Header.text_disjoint (h : Header) : h.text.toList.Disjoint [',', ':', '\n'] := by
  have hnum : ∀ x : Float, (display x).toList.Disjoint [',', ':', '\n'] := fun x =>
    List.disjoint_of_subset_right (by decide) (display_disjoint x)
  rw [Header.toList_text]
  simp only [List.disjoint_cons_left, List.disjoint_append_left, hnum, List.disjoint_nil_left]
  decide

/-! ### Rows -/

theorem Symbol.codes_isAlpha (symbol : Symbol) : ∀ x ∈ symbol.codes, x.isAlpha = true := by
  cases symbol <;> simp [Symbol.codes]

theorem CellShows.mem {codes : List Char} {qubits : List Qubit} {j : Nat} {x : Char}
    (h : CellShows codes qubits j x) : x ∈ codes ∨ x = 'I' := by
  rcases h with ⟨k, q, -, -, hx, -⟩ | ⟨-, rfl⟩
  · exact Or.inl (List.mem_of_getElem? hx)
  · exact Or.inr rfl

/-- What the text of a block is made of. -/
structure Block.Plain (b : Block) : Prop where
  nonempty : b.row ≠ []
  isAlpha : ∀ x ∈ b.row, x.isAlpha = true

theorem Instruction.Writes.plain {policy : Policy} {width : Nat} {i : Instruction} {b : Block}
    (hwidth : 1 ≤ width) (h : i.Writes policy width b) : b.Plain := by
  obtain ⟨symbol, -, hr, -⟩ := h
  have hrow := Symbol.isRow_of_row hr
  refine ⟨?_, fun x hx => ?_⟩
  · intro hnil
    have hlen := hrow.length
    rw [hnil, List.length_nil] at hlen
    omega
  · obtain ⟨j, hj, rfl⟩ := List.getElem_of_mem hx
    rcases (hrow.cell j hj).mem with hx | hx
    · exact symbol.codes_isAlpha _ hx
    · rw [hx]
      rfl

/-- The script of any circuit is made of such blocks. -/
theorem Circuit.plain_of_script {policy : Policy} {c : Circuit} {s : Script} (h : c.script policy = .ok s) :
    ∀ b ∈ s.blocks, b.Plain := by
  intro b hb
  obtain ⟨i, -, hw⟩ := exists_writes_of_mem h hb
  exact hw.plain (one_le_rowWidth _)

theorem Block.Plain.row_disjoint {b : Block} (h : b.Plain) : b.row.Disjoint fileMarks := by
  have halpha : ∀ m ∈ fileMarks, Char.isAlpha m = false := by simp [fileMarks]
  exact fun c hc hm => Bool.false_ne_true ((halpha c hm).symm.trans (h.isAlpha c hc))

/-! ### Cutting a text at its marks -/

/-- The first mark of a text cuts it in one way. -/
theorem append_inj_of_mark {marks s t u v : List Char} {a b : Char} (hs : s.Disjoint marks) (ht : t.Disjoint marks)
    (ha : a ∈ marks) (hb : b ∈ marks) (h : s ++ a :: u = t ++ b :: v) : s = t ∧ a = b ∧ u = v := by
  induction s generalizing t with
  | nil =>
    cases t with
    | nil => simpa using h
    | cons y t =>
      obtain ⟨rfl, -⟩ := List.cons_eq_cons.mp h
      exact (ht List.mem_cons_self ha).elim
  | cons x s ih =>
    cases t with
    | nil =>
      obtain ⟨rfl, -⟩ := List.cons_eq_cons.mp h
      exact (hs List.mem_cons_self hb).elim
    | cons y t =>
      rw [List.disjoint_cons_left] at hs ht
      obtain ⟨rfl, htail⟩ := List.cons_eq_cons.mp h
      obtain ⟨rfl, hab, huv⟩ := ih hs.2 ht.2 htail
      exact ⟨rfl, hab, huv⟩

namespace Block

variable {b b' : Block}

theorem toList_text (b : Block) :
    b.text.toList = ((b.header.map fun h => h.text.toList ++ ['\n']).getD []) ++ b.row := by
  unfold Block.text
  cases b.header <;> simp

theorem Plain.text_disjoint (h : b.Plain) : b.text.toList.Disjoint [',', ':'] := by
  rw [toList_text, List.disjoint_append_left]
  refine ⟨?_, List.disjoint_of_subset_right (by decide) h.row_disjoint⟩
  cases b.header with
  | none => exact List.disjoint_nil_left _
  | some header =>
    rw [Option.map_some, Option.getD_some, List.disjoint_append_left]
    exact ⟨List.disjoint_of_subset_right (by decide) header.text_disjoint, by simp⟩

theorem Plain.text_ne_nil (h : b.Plain) : b.text.toList ≠ [] := by
  rw [toList_text]
  exact List.append_ne_nil_of_right_ne_nil _ h.nonempty

/-- A row is no start of a header line. -/
theorem Plain.row_ne_cons (h : b.Plain) (rest : List Char) : b.row ≠ '\x7b' :: rest := by
  intro he
  exact h.row_disjoint (he ▸ List.mem_cons_self) (by decide)

/-- The text of a block determines its header line and its row: a row does not start with a brace, and neither part
holds a line break. -/
theorem Plain.text_inj (h : b.Plain) (h' : b'.Plain) (ht : b.text = b'.text) :
    b.header.map Header.text = b'.header.map Header.text ∧ b.row = b'.row := by
  have hl := congrArg String.toList ht
  rw [toList_text, toList_text] at hl
  cases hb : b.header with
  | none =>
    cases hb' : b'.header with
    | none =>
      rw [hb, hb'] at hl
      exact ⟨rfl, hl⟩
    | some header' =>
      rw [hb, hb', Option.map_some, Option.getD_some, Header.toList_text] at hl
      exact absurd hl (h.row_ne_cons _)
  | some header =>
    cases hb' : b'.header with
    | none =>
      rw [hb, hb', Option.map_some, Option.getD_some, Header.toList_text] at hl
      exact absurd hl.symm (h'.row_ne_cons _)
    | some header' =>
      rw [hb, hb'] at hl
      simp only [Option.map_some, Option.getD_some, List.append_assoc, List.singleton_append] at hl
      have hone : ∀ header : Header, header.text.toList.Disjoint ['\n'] := fun header =>
        List.disjoint_of_subset_right (by decide) header.text_disjoint
      obtain ⟨ht, -, hr⟩ := append_inj_of_mark (hone header) (hone header') (by simp) (by simp) hl
      exact ⟨by rw [Option.map_some, Option.map_some, String.toList_inj.mp ht], hr⟩

end Block

end GateGrid
