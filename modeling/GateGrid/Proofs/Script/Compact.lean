import Mathlib.Data.List.DropRight
import GateGrid.Proofs.Script.Decoding
import GateGrid.Proofs.Script.Encodable
import GateGrid.Script.Compact

/-!
# The compact form holds the rows

The compact form is cut out of the text of a file: line by line, without header lines and without the marks at the ends
of lines. No part of the text can be taken for another, so this gives the rows that `Symbol.row` writes.

* `rowsOf`: what is kept of lines. `rowLines`: the same line by line, which of the lines of a file gives the rows
  (`rowLines_fileBody`).
* `Instruction.row`: the row of one instruction, without the rest of its block.
* `Circuit.compactString_eq_rows`: the compact form of a circuit is the rows of its instructions.
-/

namespace GateGrid

/-! ### Lines -/

theorem lines_of_not_mem {s : List Char} (h : '\n' ∉ s) : lines s = [s] := by
  induction s with
  | nil => rfl
  | cons x s ih =>
    have hx : x ≠ '\n' := fun he => h (he ▸ List.mem_cons_self)
    have hs : '\n' ∉ s := fun hm => h (List.mem_cons_of_mem _ hm)
    rw [lines, if_neg hx, ih hs]

theorem lines_append_newline {s : List Char} (h : '\n' ∉ s) (t : List Char) :
    lines (s ++ '\n' :: t) = s :: lines t := by
  induction s with
  | nil => rw [List.nil_append, lines, if_pos rfl]
  | cons x s ih =>
    have hx : x ≠ '\n' := fun he => h (he ▸ List.mem_cons_self)
    have hs : '\n' ∉ s := fun hm => h (List.mem_cons_of_mem _ hm)
    rw [List.cons_append, lines, if_neg hx, ih hs]

/-- What is kept of lines: no header lines, and no marks at the ends of the others. -/
def rowsOf (ls : List (List Char)) : List Char :=
  (ls.filter fun line => line.head? != some '\x7b').flatMap trimMarks

theorem compactText_eq (text : String) : compactText text = String.ofList (rowsOf ((lines text.toList).drop 1)) := rfl

/-- The rows among lines: without marks at their ends, and no header lines. A file without blocks has a line of marks
only, which is no row. -/
def rowLines (ls : List (List Char)) : List (List Char) :=
  ((ls.filter fun line => line.head? != some '\x7b').map trimMarks).filter (· ≠ [])

theorem rowsOf_eq_flatten (ls : List (List Char)) : rowsOf ls = (rowLines ls).flatten := by
  rw [rowsOf, rowLines, List.flatten_filter_ne_nil, List.flatMap_def]

theorem rowLines_header (line : List Char) (ls : List (List Char)) :
    rowLines (('\x7b' :: line) :: ls) = rowLines ls := by
  rw [rowLines, List.filter_cons_of_neg (by simp), rowLines]

/-- A row with a mark behind it is taken without the mark. -/
theorem trimMarks_concat {row : List Char} (hrow : row.Disjoint fileMarks) {m : Char} (hm : m ∈ [',', ':']) :
    trimMarks (row ++ [m]) = row := by
  have hmark : (fun c => c == ',' || c == ':') m = true := by simpa using hm
  show (row ++ [m]).rdropWhile (fun c => c == ',' || c == ':') = row
  rw [List.rdropWhile_concat_pos (fun c => c == ',' || c == ':') _ _ hmark, List.rdropWhile_eq_self_iff]
  intro hne hlast
  have hmem : row.getLast hne ∈ fileMarks := by
    rcases Bool.or_eq_true_iff.mp hlast with h | h <;> rw [beq_iff_eq.mp h] <;> decide
  exact hrow (List.getLast_mem hne) hmem

theorem rowLines_row {row : List Char} (hne : row ≠ []) (hrow : row.Disjoint fileMarks) {m : Char}
    (hm : m ∈ [',', ':']) (ls : List (List Char)) : rowLines ((row ++ [m]) :: ls) = row :: rowLines ls := by
  have hbrace : '\x7b' ∉ row ++ [m] := by
    rw [List.mem_append, List.mem_singleton]
    rintro (h | rfl)
    · exact hrow h (by decide)
    · exact absurd hm (by decide)
  have hhead : ((row ++ [m]).head? != some '\x7b') = true := bne_iff_ne.mpr fun h => hbrace (List.mem_of_head? h)
  rw [rowLines, List.filter_cons_of_pos (p := fun line : List Char => line.head? != some '\x7b') hhead,
    List.map_cons, trimMarks_concat hrow hm, List.filter_cons_of_pos (by simpa using hne), rowLines]

/-! ### Blocks -/

namespace Block

variable {b : Block}

/-- The header line of a block is dropped, whatever its angles are. -/
theorem rowLines_lines (b : Block) (t : List Char) :
    rowLines (lines (b.text.toList ++ t)) = rowLines (lines (b.row ++ t)) := by
  rw [toList_text]
  cases b.header with
  | none => rfl
  | some header =>
    have hline : '\n' ∉ header.text.toList := fun h => header.text_disjoint h (by decide)
    rw [Option.map_some, Option.getD_some, List.append_assoc, List.append_assoc, List.singleton_append,
      lines_append_newline hline, Header.toList_text, rowLines_header]

/-- The line of a row ends with a mark of the file. -/
theorem Plain.not_mem_line (h : b.Plain) {m : Char} (hm : m ∈ [',', ':']) : '\n' ∉ b.row ++ [m] := by
  rw [List.mem_append, List.mem_singleton]
  rintro (hn | rfl)
  · exact h.row_disjoint hn (by decide)
  · exact absurd hm (by decide)

end Block

theorem rowLines_fileBody {blocks : List Block} (h : ∀ b ∈ blocks, b.Plain) :
    rowLines (lines (fileBody (blocks.map fun b => b.text.toList))) = blocks.map Block.row := by
  induction blocks with
  | nil => rfl
  | cons b rest ih =>
    rw [List.forall_mem_cons] at h
    obtain ⟨m, hm, u, hbody, hcase⟩ := fileBody_cons b.text.toList (rest.map fun b => b.text.toList)
    rw [List.map_cons, hbody, Block.rowLines_lines, List.map_cons]
    have hline := h.1.not_mem_line hm
    rcases hcase with ⟨hrest, -, rfl⟩ | ⟨-, -, rfl⟩
    · -- the last block: its line ends with the colon
      obtain rfl := List.map_eq_nil_iff.mp hrest
      rw [lines_of_not_mem hline, rowLines_row h.1.nonempty h.1.row_disjoint hm]
      rfl
    · -- the line ends with the comma, and the rest of the body starts a new one
      rw [List.append_cons, lines_append_newline hline, rowLines_row h.1.nonempty h.1.row_disjoint hm, ih h.2]

/-- The first line of a script is dropped too. -/
theorem Script.rowLines_text {s : Script} (h : ∀ b ∈ s.blocks, b.Plain) :
    rowLines ((lines s.text.toList).drop 1) = s.blocks.map Block.row := by
  have hfirst : '\n' ∉ '#' :: ' ' :: Nat.toDigits 10 s.numQubits := by
    rw [List.mem_cons, List.mem_cons]
    rintro (hm | hm | hm)
    · exact absurd hm (by decide)
    · exact absurd hm (by decide)
    · exact absurd (Decimal.isDigit_of_mem_toDigits hm) (by decide)
  have hlines := lines_append_newline hfirst (fileBody (s.blocks.map fun b => b.text.toList))
  rw [List.cons_append, List.cons_append] at hlines
  rw [Script.toList_text, hlines, List.drop_one, List.tail_cons, rowLines_fileBody h]

theorem Script.compactText_text {s : Script} (h : ∀ b ∈ s.blocks, b.Plain) :
    compactText s.text = String.ofList (s.blocks.flatMap Block.row) := by
  rw [compactText_eq, rowsOf_eq_flatten, Script.rowLines_text h, List.flatMap_def]

/-! ### Circuits -/

/-- Letters stand behind the digits. -/
theorem isDigit_of_isAlpha {x : Char} (h : x.isAlpha = true) : x.isDigit = false := by
  have hletter : 65 ≤ x.val.toNat := by
    rcases Bool.or_eq_true_iff.mp h with hupper | hlower
    · exact UInt32.le_iff_toNat_le.mp (of_decide_eq_true hupper).1
    · have hle : 97 ≤ x.val.toNat :=
        UInt32.le_iff_toNat_le.mp (of_decide_eq_true (Bool.and_eq_true_iff.mp hlower).1)
      omega
  by_contra hdigit
  have hrange : 48 ≤ x.val.toNat ∧ x.val.toNat ≤ 57 := Char.isDigit_iff_toNat.mp (eq_true_of_ne_false hdigit)
  omega

/-- The row of an instruction, without the rest of its block. -/
def Instruction.row (width : Nat) (i : Instruction) : Except EncodeError (List Char) := do
  let symbol ← i.symbol
  symbol.row i.qubits width

theorem Instruction.Writes.row_eq {policy : Policy} {width : Nat} {i : Instruction} {b : Block}
    (h : i.Writes policy width b) : i.row width = .ok b.row := by
  obtain ⟨g, hg, hrow, -⟩ := h
  rw [Instruction.row, symbol_eq_ok_iff.mpr hg]
  exact hrow

theorem mapM_row_of_writes {policy : Policy} {width : Nat} {instructions : List Instruction} {blocks : List Block}
    (h : List.Forall₂ (Instruction.Writes policy width) instructions blocks) :
    instructions.mapM (Instruction.row width) = .ok (blocks.map Block.row) := by
  induction h with
  | nil => rfl
  | cons hw _ ih =>
    rw [List.mapM_cons, hw.row_eq, ih]
    rfl

theorem length_flatMap_row {width : Nat} {blocks : List Block} (h : ∀ b ∈ blocks, b.row.length = width) :
    (blocks.flatMap Block.row).length = width * blocks.length := by
  induction blocks with
  | nil => rfl
  | cons b rest ih =>
    rw [List.forall_mem_cons] at h
    rw [List.flatMap_cons, List.length_append, h.1, ih h.2, List.length_cons, Nat.mul_succ, Nat.add_comm]

namespace Circuit

variable {policy : Policy} {c : Circuit} {s : Script}

theorem compactString_of_script (h : c.script policy = .ok s) :
    c.compactString policy = .ok (String.ofList (s.blocks.flatMap Block.row)) := by
  rw [compactString, fileString_eq_ok_iff.mpr ⟨s, h, rfl⟩, Except.map, Script.compactText_text (plain_of_script h)]

/-- **The compact form is the rows**: it exists exactly when the text of the file does and is missing for the same
reason, and it is what the instructions with a block give when only their rows are written, one behind the other. So it
has none of the marks of a file and no digit, and as many characters as these rows have cells. -/
theorem compactString_eq_rows (policy : Policy) (c : Circuit) :
    (∀ e, c.compactString policy = .error e ↔ c.fileString policy = .error e) ∧
      ∀ text, c.fileString policy = .ok text →
        ∃ rows compact, c.emitted.mapM (Instruction.row c.width) = .ok rows ∧
          compact = String.ofList rows.flatten ∧ c.compactString policy = .ok compact ∧
          (∀ x ∈ compact.toList, x ∉ fileMarks ∧ x.isDigit = false) ∧
          compact.length = c.width * c.emitted.length := by
  refine ⟨fun e => Except.map_eq_error_iff, fun text h => ?_⟩
  obtain ⟨s, hs, rfl⟩ := fileString_eq_ok_iff.mp h
  have hplain := plain_of_script hs
  have hw := (writes_of_script hs).2
  refine ⟨_, _, mapM_row_of_writes hw, rfl, ?_, fun x hx => ?_, ?_⟩
  · rw [compactString, h, Except.map, Script.compactText_text hplain, List.flatMap_def]
  · rw [String.toList_ofList, ← List.flatMap_def] at hx
    obtain ⟨b, hb, hxb⟩ := List.mem_flatMap.mp hx
    have hletter := (hplain b hb).isAlpha x hxb
    exact ⟨fun hm => (hplain b hb).row_disjoint hxb hm, isDigit_of_isAlpha hletter⟩
  · rw [String.length_ofList, ← List.flatMap_def, length_flatMap_row (length_row_of_script hs), hw.length_eq]

/-- Headers of words, of a negative zero and of a large angle, and a name and a label that look like parts of a file. -/
theorem compactString_eq_rows_angles :
    let c : Circuit := { name := "# 9\n:", numQubits := 2, instructions := [
      .ofGate { name := "u", params := [0 / 0, 1 / 0, -0], label := some "\x7bU" } [⟨1⟩],
      StandardGate.instruction (.cp 1e21 ⟨1⟩ ⟨0⟩), .barrier [⟨0⟩, ⟨1⟩]] }
    let text := "# 2\n\x7bU NaN inf -0\x7d\nIU,\n\x7bU 0 0 1000000000000000000000\x7d\nUC:"
    c.fileString .strict = .ok text ∧ c.compactString .strict = .ok "IUUC" ∧
      ∃ rows compact, c.emitted.mapM (Instruction.row c.width) = .ok rows ∧
        compact = String.ofList rows.flatten ∧ c.compactString .strict = .ok compact ∧
        (∀ x ∈ compact.toList, x ∉ fileMarks ∧ x.isDigit = false) ∧
        compact.length = c.width * c.emitted.length :=
  ⟨rfl, rfl, (compactString_eq_rows .strict _).2 _ rfl⟩

end Circuit

end GateGrid
