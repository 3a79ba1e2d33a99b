import Mathlib.Data.List.Perm.Basic
import GateGrid.Proofs.Circuit.Reachable
import GateGrid.Proofs.Script.Characters

/-!
# What the text of a file says about its circuit

* `Script.text_inj`: the text determines the number of qubits and the header line and row of every block.
* `IsRow.mem_zip_iff`: with no qubit twice, a row shows exactly the operands with their codes, but for identity codes.
* `Instruction.SameGate`: two instructions have the same gate, but for gates that differ in their headers only, on the
  same operands, but for operands of one code.
* `Circuit.fileString_decodable`: two reachable circuits with the same text have the same blocks, and the same gate in
  each block whose row is not the identity row.
-/

namespace GateGrid

/-! ## From the text to the blocks -/

/-- The blocks of a file and the colon behind them. -/
def fileBody (blocks : List (List Char)) : List Char :=
  [',', '\n'].intercalate blocks ++ [':']

theorem fileBody_cons (t : List Char) (rest : List (List Char)) :
    ∃ m ∈ [',', ':'], ∃ u, fileBody (t :: rest) = t ++ m :: u ∧
      (rest = [] ∧ m = ':' ∧ u = [] ∨ rest ≠ [] ∧ m = ',' ∧ u = '\n' :: fileBody rest) := by
  cases rest with
  | nil => exact ⟨':', by simp, [], by simp [fileBody], Or.inl ⟨rfl, rfl, rfl⟩⟩
  | cons t' rest =>
    exact ⟨',', by simp, '\n' :: fileBody (t' :: rest), by simp [fileBody],
      Or.inr ⟨List.cons_ne_nil _ _, rfl, rfl⟩⟩

/-- An empty body differs from every other, and the first comma or colon ends the first block. -/
theorem fileBody_inj {l l' : List (List Char)} (hl : ∀ t ∈ l, t.Disjoint [',', ':'] ∧ t ≠ [])
    (hl' : ∀ t ∈ l', t.Disjoint [',', ':'] ∧ t ≠ []) (h : fileBody l = fileBody l') : l = l' := by
  have hempty : ∀ {t rest}, t.Disjoint [',', ':'] ∧ t ≠ [] → fileBody [] ≠ fileBody (t :: rest) := by
    intro t rest ht he
    obtain ⟨m, -, u, hb, -⟩ := fileBody_cons t rest
    obtain ⟨x, t, rfl⟩ := List.exists_cons_of_ne_nil ht.2
    rw [hb, List.cons_append] at he
    obtain ⟨rfl, -⟩ := List.cons_eq_cons.mp he
    exact ht.1 List.mem_cons_self (by decide)
  induction l generalizing l' with
  | nil =>
    cases l' with
    | nil => rfl
    | cons t' rest' => exact absurd h (hempty (hl' t' List.mem_cons_self))
  | cons t rest ih =>
    cases l' with
    | nil => exact absurd h.symm (hempty (hl t List.mem_cons_self))
    | cons t' rest' =>
      obtain ⟨m, hm, u, hb, hcase⟩ := fileBody_cons t rest
      obtain ⟨m', hm', u', hb', hcase'⟩ := fileBody_cons t' rest'
      rw [hb, hb'] at h
      obtain ⟨rfl, rfl, hu⟩ := append_inj_of_mark (hl t List.mem_cons_self).1
        (hl' t' List.mem_cons_self).1 hm hm' h
      rcases hcase with ⟨rfl, rfl, -⟩ | ⟨-, rfl, rfl⟩
      · rcases hcase' with ⟨rfl, -, -⟩ | ⟨-, hne, -⟩
        · rfl
        · exact absurd hne (by decide)
      · rcases hcase' with ⟨-, hne, -⟩ | ⟨-, -, rfl⟩
        · exact absurd hne (by decide)
        · rw [ih (fun t ht => hl t (List.mem_cons_of_mem _ ht)) (fun t ht => hl' t (List.mem_cons_of_mem _ ht))
            (List.cons_eq_cons.mp hu).2]

theorem Script.toList_text (s : Script) :
    s.text.toList = '#' :: ' ' :: (Nat.toDigits 10 s.numQubits ++ '\n' ::
      fileBody (s.blocks.map fun b => b.text.toList)) := by
  simp [Script.text_eq, fileBody, Function.comp_def]

/-- Header line and row of a block. -/
def Block.parts (b : Block) : Option String × List Char :=
  (b.header.map Header.text, b.row)

theorem Script.text_inj {s s' : Script} (h : ∀ b ∈ s.blocks, b.Plain) (h' : ∀ b ∈ s'.blocks, b.Plain)
    (ht : s.text = s'.text) :
    s.numQubits = s'.numQubits ∧ s.blocks.map Block.parts = s'.blocks.map Block.parts := by
  have hdigits : ∀ n, (Nat.toDigits 10 n).Disjoint ['\n'] := by
    intro n c hc hm
    have hd := Decimal.isDigit_of_mem_toDigits hc
    rw [List.mem_singleton.mp hm] at hd
    exact absurd hd (by decide)
  have hbody : ∀ {s : Script}, (∀ b ∈ s.blocks, b.Plain) →
      ∀ t ∈ s.blocks.map fun b => b.text.toList, t.Disjoint [',', ':'] ∧ t ≠ [] := by
    intro s hs t ht
    obtain ⟨b, hb, rfl⟩ := List.mem_map.mp ht
    exact ⟨(hs b hb).text_disjoint, (hs b hb).text_ne_nil⟩
  have hl := congrArg String.toList ht
  rw [Script.toList_text, Script.toList_text] at hl
  obtain ⟨hn, -, hb⟩ := append_inj_of_mark (hdigits _) (hdigits _) (by simp) (by simp)
    (List.cons_eq_cons.mp (List.cons_eq_cons.mp hl).2).2
  refine ⟨?_, ?_⟩
  · have hnum := congrArg (Nat.ofDigitChars 10 · 0) hn
    simpa using hnum
  · have htexts := fileBody_inj (hbody h) (hbody h') hb
    have hlen : s.blocks.length = s'.blocks.length := by simpa using congrArg List.length htexts
    refine List.ext_getElem (by simpa using hlen) fun k hk hk' => ?_
    rw [List.length_map] at hk hk'
    have hk'' : k < (s.blocks.map fun b => b.text.toList).length := by rwa [List.length_map]
    have htk : s.blocks[k].text = s'.blocks[k].text := by
      have hget := List.getElem_of_eq htexts hk''
      rw [List.getElem_map, List.getElem_map] at hget
      exact String.toList_inj.mp hget
    obtain ⟨hh, hr⟩ := (h _ (List.getElem_mem hk)).text_inj (h' _ (List.getElem_mem hk')) htk
    rw [List.getElem_map, List.getElem_map, Block.parts, Block.parts, hh, hr]

/-! ## From a row to its gate -/

section Rows

variable {codes : List Char} {qubits : List Qubit} {width : Nat} {row : List Char}

/-- With no operand twice, a cell with another code than that of the identity belongs to one operand. -/
theorem IsRow.mem_zip_iff (hrow : IsRow codes qubits width row) (hnodup : qubits.Nodup)
    (hlt : ∀ q ∈ qubits, q.index.toNat < width) {q : Qubit} {x : Char} (hx : x ≠ 'I') :
    (q, x) ∈ qubits.zip codes ↔ row[q.index.toNat]? = some x := by
  constructor
  · intro hmem
    obtain ⟨k, hk⟩ := List.getElem?_of_mem hmem
    obtain ⟨hkq, hkx⟩ := List.getElem?_zip_eq_some.mp hk
    exact hrow.getElem?_operand hnodup hlt hkq hkx
  · intro hget
    obtain ⟨hj, hgetx⟩ := List.getElem?_eq_some_iff.mp hget
    rcases hrow.cell _ hj with ⟨k, q', hkq, hq', hkx, -⟩ | ⟨-, hid⟩
    · obtain rfl := Qubit.toNat_index_inj.mp hq'
      rw [hgetx] at hkx
      exact List.mem_of_getElem? (List.getElem?_zip_eq_some.mpr ⟨hkq, hkx⟩)
    · exact absurd (hgetx.symm.trans hid) hx

end Rows

namespace Symbol

theorem mem_all (symbol : Symbol) : symbol ∈ all := by
  cases symbol <;> decide

/-- Only the identity gate has the identity code. -/
theorem codes_ne_identity (symbol : Symbol) {x : Char} (h : x ∈ symbol.codes) (hx : x ≠ 'I') :
    ∀ y ∈ symbol.codes, y ≠ 'I' := by
  revert x
  cases symbol <;> simp [codes]

/-- The codes of a gate stand in alphabetic order. -/
theorem codes_sorted (symbol : Symbol) : symbol.codes.Pairwise (· ≤ ·) := by
  cases symbol <;> decide

theorem codes_eq_of_perm {g g' : Symbol} (h : g.codes.Perm g'.codes) : g.codes = g'.codes :=
  h.eq_of_pairwise (fun _ _ _ _ => Char.le_antisymm) g.codes_sorted g'.codes_sorted

/-- Gates of the same codes are the same, or differ in their headers only. -/
theorem eq_of_codes_eq {g g' : Symbol} (h : g.codes = g'.codes) :
    g = g' ∨ (g ∈ [ry, u] ∧ g' ∈ [ry, u]) ∨ (g ∈ [cu, cp] ∧ g' ∈ [cu, cp]) := by
  have htable : ∀ g ∈ all, ∀ g' ∈ all, g.codes = g'.codes →
      g = g' ∨ (g ∈ [ry, u] ∧ g' ∈ [ry, u]) ∨ (g ∈ [cu, cp] ∧ g' ∈ [cu, cp]) := by
    decide +kernel
  exact htable g g.mem_all g' g'.mem_all h

end Symbol

/-- Both name a gate of the table; the gates have the same codes, and so are the same but for `ry` and `u`, `cu` and
`cp`; and the operands with their codes are the same up to order, that is up to an exchange of operands with the same
code. -/
def Instruction.SameGate (i i' : Instruction) : Prop :=
  ∃ g g', Symbol.ofName? i.name = some g ∧ Symbol.ofName? i'.name = some g' ∧ g.codes = g'.codes ∧
    (g = g' ∨ (g ∈ [.ry, .u] ∧ g' ∈ [.ry, .u]) ∨ (g ∈ [.cu, .cp] ∧ g' ∈ [.cu, .cp])) ∧
    i.qubits.length = g.codes.length ∧ i'.qubits.length = g'.codes.length ∧
    (i.qubits.zip g.codes).Perm (i'.qubits.zip g'.codes)

/-- Two scripts agree block for block in rows and header lines, and in their gates wherever a row shows one. `is` and
`is'` are the instructions of the blocks. -/
structure Script.Agrees (s s' : Script) (is is' : List Instruction) : Prop where
  numQubits_eq : s.numQubits = s'.numQubits
  length_eq : s.blocks.length = s'.blocks.length
  length_left : is.length = s.blocks.length
  length_right : is'.length = s'.blocks.length
  block : ∀ (k : Nat) (i i' : Instruction) (b b' : Block), is[k]? = some i → is'[k]? = some i' →
    s.blocks[k]? = some b → s'.blocks[k]? = some b' →
    b.row = b'.row ∧ b.header.map Header.text = b'.header.map Header.text ∧
      ((∃ x ∈ b.row, x ≠ 'I') → i.SameGate i')

section Blocks

variable {policy policy' : Policy} {width width' : Nat} {i i' : Instruction} {b b' : Block}

/-- An instruction whose operands are pairwise different and have cells. -/
def Instruction.Placed (width : Nat) (i : Instruction) : Prop :=
  i.qubits.Nodup ∧ ∀ q ∈ i.qubits, q.index.toNat < width

/-- A row with a code other than the identity code is one of a gate with all its operands, none of which has the
identity code. -/
theorem Instruction.Writes.acts (h : i.Writes policy width b) (hacts : ∃ x ∈ b.row, x ≠ 'I') :
    ∃ g, Symbol.ofName? i.name = some g ∧ IsRow g.codes i.qubits width b.row ∧
      i.qubits.length = g.codes.length ∧ ∀ y ∈ g.codes, y ≠ 'I' := by
  obtain ⟨g, hg, hr, -⟩ := h
  have hrow := Symbol.isRow_of_row hr
  obtain ⟨x, hx, hne⟩ := hacts
  obtain ⟨j, hj, rfl⟩ := List.getElem_of_mem hx
  rcases hrow.cell j hj with ⟨k, q, hkq, -, hkx, -⟩ | ⟨-, hid⟩
  · refine ⟨g, hg, hrow, ?_, g.codes_ne_identity (List.mem_of_getElem? hkx) hne⟩
    rcases Symbol.length_of_row hr with hnil | hlen
    · rw [hnil] at hkq
      exact absurd hkq (by simp)
    · exact hlen
  · exact absurd hid hne

/-- A row can be inverted: it determines the gate and where its codes stand. -/
theorem Instruction.Writes.sameGate (h : i.Writes policy width b) (h' : i'.Writes policy' width' b')
    (hp : i.Placed width) (hp' : i'.Placed width') (hrow : b.row = b'.row) (hacts : ∃ x ∈ b.row, x ≠ 'I') :
    i.SameGate i' := by
  obtain ⟨g, hg, hr, hlen, hne⟩ := h.acts hacts
  obtain ⟨g', hg', hr', hlen', hne'⟩ := h'.acts (hrow ▸ hacts)
  rw [← hrow] at hr'
  have hfst : ∀ {qs : List Qubit} {cs : List Char}, qs.length = cs.length →
      (qs.zip cs).map Prod.fst = qs := fun he => List.map_fst_zip he.le
  have hsnd : ∀ {qs : List Qubit} {cs : List Char}, qs.length = cs.length →
      (qs.zip cs).map Prod.snd = cs := fun he => List.map_snd_zip he.ge
  have hnd : (i.qubits.zip g.codes).Nodup := List.Nodup.of_map Prod.fst ((hfst hlen).symm ▸ hp.1)
  have hnd' : (i'.qubits.zip g'.codes).Nodup := List.Nodup.of_map Prod.fst ((hfst hlen').symm ▸ hp'.1)
  have hperm : (i.qubits.zip g.codes).Perm (i'.qubits.zip g'.codes) := by
    refine (List.perm_ext_iff_of_nodup hnd hnd').mpr fun ⟨q, x⟩ => ⟨fun hm => ?_, fun hm => ?_⟩
    · have hx : x ≠ 'I' := hne x (List.of_mem_zip hm).2
      exact (hr'.mem_zip_iff hp'.1 hp'.2 hx).mpr ((hr.mem_zip_iff hp.1 hp.2 hx).mp hm)
    · have hx : x ≠ 'I' := hne' x (List.of_mem_zip hm).2
      exact (hr.mem_zip_iff hp.1 hp.2 hx).mpr ((hr'.mem_zip_iff hp'.1 hp'.2 hx).mp hm)
  have hcodes : g.codes = g'.codes := by
    have hmap := hperm.map Prod.snd
    rw [hsnd hlen, hsnd hlen'] at hmap
    exact Symbol.codes_eq_of_perm hmap
  exact ⟨g, g', hg, hg', hcodes, Symbol.eq_of_codes_eq hcodes, hlen, hlen', hperm⟩

end Blocks

/-! ## Circuits -/

theorem forall₂_getElem? {α β : Type} {R : α → β → Prop} {l : List α} {l' : List β} (h : List.Forall₂ R l l') {k : Nat}
    {a : α} {b : β} (ha : l[k]? = some a) (hb : l'[k]? = some b) : R a b := by
  obtain ⟨hk, rfl⟩ := List.getElem?_eq_some_iff.mp ha
  obtain ⟨hk', rfl⟩ := List.getElem?_eq_some_iff.mp hb
  exact h.get hk hk'

theorem Circuit.Valid.placed {c : Circuit} (h : c.Valid) {i : Instruction} (hi : i ∈ c.emitted) :
    i.Placed c.width := by
  have hkept := mem_withoutMeasurements hi
  exact ⟨(h i (List.mem_of_mem_filter hkept)).qubits_nodup, fun q hq => lt_rowWidth hkept hq⟩

/-- **Unique decodability**: reachable circuits with the same text declare the same number of qubits, and their scripts
agree block for block in rows and header lines. Where a row is not the identity row, the two instructions have the same
gate on the same operands. -/
theorem Circuit.fileString_decodable {c c' : Circuit} {policy policy' : Policy} {text : String}
    (hc : c.Reachable) (hc' : c'.Reachable) (h : c.fileString policy = .ok text)
    (h' : c'.fileString policy' = .ok text) :
    c.numQubits = c'.numQubits ∧
      ∃ s s', c.script policy = .ok s ∧ c'.script policy' = .ok s' ∧ s.text = text ∧ s'.text = text ∧
        s.Agrees s' c.emitted c'.emitted := by
  obtain ⟨s, hs, hst⟩ := fileString_eq_ok_iff.mp h
  obtain ⟨s', hs', hst'⟩ := fileString_eq_ok_iff.mp h'
  obtain ⟨hn, hw⟩ := writes_of_script hs
  obtain ⟨hn', hw'⟩ := writes_of_script hs'
  obtain ⟨hnum, hparts⟩ := Script.text_inj (plain_of_script hs) (plain_of_script hs') (hst.trans hst'.symm)
  have hlen : s.blocks.length = s'.blocks.length := by simpa using congrArg List.length hparts
  refine ⟨UInt32.toNat_inj.mp (hn ▸ hn' ▸ hnum), s, s', hs, hs', hst, hst', hnum, hlen, hw.length_eq,
    hw'.length_eq, fun k i i' b b' hi hi' hb hb' => ?_⟩
  have hpk : b.parts = b'.parts := by
    have hget := congrArg (·[k]?) hparts
    simpa [hb, hb'] using hget
  obtain ⟨hh, hr⟩ := Prod.mk.inj hpk
  have hwrites : i.Writes policy c.width b := forall₂_getElem? hw hi hb
  have hwrites' : i'.Writes policy' c'.width b' := forall₂_getElem? hw' hi' hb'
  exact ⟨hr, hh, fun hacts => hwrites.sameGate hwrites' (hc.valid.placed (List.mem_of_getElem? hi))
    (hc'.valid.placed (List.mem_of_getElem? hi')) hr hacts⟩

/-- The operands of a swap in either order, and an angle spelled in two ways. -/
theorem Circuit.fileString_decodable_swapped :
    let c := (({ name := "a", numQubits := 3 } : Circuit).after (.standard (.swap ⟨0⟩ ⟨2⟩))).after
      (.standard (.ry 0.5 ⟨1⟩))
    let c' := (({ name := "b", numQubits := 3, numClbits := 2 } : Circuit).after (.standard (.swap ⟨2⟩ ⟨0⟩))).after
      (.standard (.u 0.5 0 0 ⟨1⟩))
    let text := "# 3\nWIW,\n\x7bU 0.5 0 0\x7d\nIUI:"
    c.Reachable ∧ c'.Reachable ∧ c.fileString .strict = .ok text ∧ c'.fileString .lenient = .ok text ∧
      ∃ s s', c.script .strict = .ok s ∧ c'.script .lenient = .ok s' ∧ s.Agrees s' c.emitted c'.emitted := by
  intro c c' text
  have hc : c.Reachable := .call _ (.call _ (.sized "a" 3 0) trivial) trivial
  have hc' : c'.Reachable := .call _ (.call _ (.sized "b" 3 2) trivial) trivial
  have hcircuit : c = { name := "a", numQubits := 3, instructions :=
      [StandardGate.instruction (.swap ⟨0⟩ ⟨2⟩), StandardGate.instruction (.ry 0.5 ⟨1⟩)] } := by
    with_unfolding_all rfl
  have hcircuit' : c' = { name := "b", numQubits := 3, numClbits := 2, instructions :=
      [StandardGate.instruction (.swap ⟨2⟩ ⟨0⟩), StandardGate.instruction (.u 0.5 0 0 ⟨1⟩)] } := by
    with_unfolding_all rfl
  have h : c.fileString .strict = .ok text := by
    rw [hcircuit]
    rfl
  have h' : c'.fileString .lenient = .ok text := by
    rw [hcircuit']
    rfl
  obtain ⟨-, s, s', hs, hs', -, -, hagrees⟩ := fileString_decodable hc hc' h h'
  exact ⟨hc, hc', h, h', s, s', hs, hs', hagrees⟩

end GateGrid
