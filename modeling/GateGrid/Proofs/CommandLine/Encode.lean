import Mathlib.Data.List.TakeDrop
import Mathlib.Data.List.TakeWhile
import GateGrid.CommandLine.Run
import GateGrid.Proofs.CommandLine.Verbosity
import GateGrid.Proofs.CommandLine.World

/-!
# What encoding a file does

* `Path.HasExtension path ext`: the extension of the file name at the end of a path.
* `EncodeRequest.Fails w request`, `EncodeRequest.Encodes w request c s`: what stands in the way of an encoding, and
  what is encoded as `s` when nothing does. It is always one of the two (`EncodeRequest.fails_or_encodes`).
* `run_encode`: what a run of the program leaves in either case.
-/

namespace GateGrid.CommandLine

/-! ## The input -/

/-- The file name at the end of the path ends in a dot and the extension, which has no dot itself. The dot is not its
first character. -/
def Path.HasExtension (path ext : String) : Prop :=
  ∃ name stem, ((Path.names path).filter (· != ".")).getLast? = some name ∧ name ≠ ".." ∧ stem ≠ [] ∧
    '.' ∉ ext.toList ∧ name.toList = stem ++ '.' :: ext.toList

theorem bne_of_mem_reverse {m : Char} {l : List Char} (h : m ∉ l) : ∀ c ∈ l.reverse, (c != m) = true := by
  intro c hc
  rw [bne_iff_ne]
  rintro rfl
  exact h (List.mem_reverse.mp hc)

/-- A list that ends in a mark and a part without it is cut at this mark from behind. -/
theorem span_reverse {m : Char} {stem suffix : List Char} (hsuffix : m ∉ suffix) :
    (stem ++ m :: suffix).reverse.span (· != m) = (suffix.reverse, m :: stem.reverse) := by
  have hreverse : (stem ++ m :: suffix).reverse = suffix.reverse ++ m :: stem.reverse := by simp
  have hkeep := bne_of_mem_reverse hsuffix
  rw [hreverse, List.span_eq_takeWhile_dropWhile, List.takeWhile_append_of_pos hkeep,
    List.dropWhile_append_of_pos hkeep]
  simp

theorem span_reverse_of_not_mem {m : Char} {l : List Char} (h : m ∉ l) :
    l.reverse.span (· != m) = (l.reverse, []) := by
  have hall := bne_of_mem_reverse h
  rw [List.span_eq_takeWhile_dropWhile, List.dropWhile_eq_nil_iff.mpr hall, List.takeWhile_eq_self_iff.mpr hall]

/-- A list with a mark is cut at the last one. -/
theorem exists_last_mark {m : Char} {l : List Char} (h : m ∈ l) :
    ∃ stem suffix, l = stem ++ m :: suffix ∧ m ∉ suffix := by
  obtain ⟨before, after, hcut, hbefore⟩ := List.eq_append_cons_of_mem (List.mem_reverse.mpr h)
  refine ⟨after.reverse, before.reverse, ?_, by rwa [List.mem_reverse]⟩
  rw [← List.reverse_inj, hcut]
  simp

theorem extension?_eq_some_iff {path ext : String} : extension? path = some ext ↔ Path.HasExtension path ext := by
  unfold extension?
  constructor
  · intro h
    split at h
    · cases h
    · cases h
    · rename_i name hname hlast
      by_cases hdot : '.' ∈ name.toList
      · obtain ⟨stem, suffix, htext, hsuffix⟩ := exists_last_mark hdot
        rw [htext, span_reverse hsuffix] at h
        cases hstem : stem.reverse with
        | nil =>
          rw [hstem] at h
          cases h
        | cons c rest =>
          rw [hstem] at h
          obtain rfl := Option.some.inj h
          have hne : stem ≠ [] := List.reverse_ne_nil_iff.mp (hstem ▸ List.cons_ne_nil c rest)
          refine ⟨name, stem, hlast, hname, hne, ?_, ?_⟩
          · rwa [String.toList_ofList, List.reverse_reverse]
          · rw [String.toList_ofList, List.reverse_reverse, htext]
      · rw [span_reverse_of_not_mem hdot] at h
        cases h
  · rintro ⟨name, stem, hlast, hname, hstem, hext, htext⟩
    rw [hlast]
    split
    · rename_i he
      cases he
    · rename_i he
      exact absurd (Option.some.inj he) hname
    · rename_i name' _ he
      obtain rfl := Option.some.inj he
      rw [htext, span_reverse hext]
      obtain ⟨c, rest, hreverse⟩ := List.exists_cons_of_ne_nil (List.reverse_ne_nil_iff.mpr hstem)
      rw [hreverse]
      simp

/-- The extension is one of those of circuits in another language, in upper or lower case. -/
theorem isForeign_iff {path : String} :
    isForeign path = true ↔ ∃ ext, Path.HasExtension path ext ∧ ext.toLower ∈ ["qasm", "qasm3"] := by
  unfold isForeign
  cases hext : extension? path with
  | none =>
    simp only [Bool.false_eq_true, false_iff]
    rintro ⟨ext, h, -⟩
    rw [extension?_eq_some_iff.mpr h] at hext
    cases hext
  | some ext =>
    simp only [List.contains_iff_mem]
    constructor
    · intro h
      exact ⟨ext, extension?_eq_some_iff.mp hext, h⟩
    · rintro ⟨ext', h, hmem⟩
      rw [extension?_eq_some_iff.mpr h] at hext
      exact Option.some.inj hext ▸ hmem

theorem fromUTF8?_eq_some_iff {bytes : ByteArray} {text : String} :
    String.fromUTF8? bytes = some text ↔ bytes = text.toUTF8 := by
  unfold String.fromUTF8?
  constructor
  · intro h
    split at h
    · obtain rfl := Option.some.inj h
      rfl
    · cases h
  · rintro rfl
    rw [String.toUTF8_eq_toByteArray, dif_pos text.isValidUTF8]
    rfl

theorem textOf_eq_ok_iff {content : Except FileFault ByteArray} {text : String} :
    textOf content = .ok text ↔ content = .ok text.toUTF8 := by
  rw [textOf, Except.bind_eq_ok_iff]
  constructor
  · rintro ⟨bytes, rfl, htext⟩
    cases hfound : String.fromUTF8? bytes with
    | none =>
      rw [hfound] at htext
      cases htext
    | some found =>
      rw [hfound] at htext
      obtain rfl := Except.pure_eq_ok_iff.mp htext
      rw [fromUTF8?_eq_some_iff.mp hfound]
  · rintro rfl
    exact ⟨_, rfl, by rw [fromUTF8?_eq_some_iff.mpr rfl]; rfl⟩

theorem loadCircuit_eq_ok_iff {path : String} {access : Access} {c : Circuit} :
    loadCircuit path access = .ok c ↔ isForeign path = false ∧
      ∃ text, access = .present (.ok text.toUTF8) ∧ Circuit.ofJson text = .ok c := by
  cases access with
  | missing => exact ⟨nofun, nofun⟩
  | present content =>
    cases hforeign : isForeign path with
    | true =>
      simp only [loadCircuit, hforeign]
      exact ⟨nofun, nofun⟩
    | false =>
      simp only [loadCircuit, hforeign, Bool.false_eq_true, if_false, true_and, Access.present.injEq,
        ← textOf_eq_ok_iff]
      cases htext : textOf content with
      | error fault => exact ⟨nofun, nofun⟩
      | ok text =>
        cases hload : Circuit.ofJson text with
        | error e => simp [hload]
        | ok found => simp [hload]

/-! ## Requests -/

namespace EncodeRequest

variable {request : EncodeRequest} {w : World} {c : Circuit} {s : String}

/-- Why a request comes to nothing before anything is written. -/
inductive Fails (w : World) (request : EncodeRequest) : Prop where
  | missing : w.access request.input = .missing → Fails w request
  | foreign (ext : String) : Path.HasExtension request.input ext → ext.toLower ∈ ["qasm", "qasm3"] → Fails w request
  | unreadable (fault : FileFault) : w.access request.input = .present (.error fault) → Fails w request
  | notText (bytes : ByteArray) : w.access request.input = .present (.ok bytes) →
      (∀ text : String, bytes ≠ text.toUTF8) → Fails w request
  | notLoaded (text : String) (e : CircuitError) : w.access request.input = .present (.ok text.toUTF8) →
      Circuit.ofJson text = .error e → Fails w request
  | notEncoded (text : String) (c : Circuit) (e : EncodeError) :
      w.access request.input = .present (.ok text.toUTF8) → Circuit.ofJson text = .ok c →
      (if request.compact then c.compactString request.policy else c.fileString request.policy) = .error e →
      Fails w request

/-- The input is the text of the circuit `c`, whose encoding in the form asked for is `s`. -/
structure Encodes (w : World) (request : EncodeRequest) (c : Circuit) (s : String) : Prop where
  native : ∀ ext, Path.HasExtension request.input ext → ext.toLower ∉ ["qasm", "qasm3"]
  loaded : ∃ text : String, w.access request.input = .present (.ok text.toUTF8) ∧ Circuit.ofJson text = .ok c
  encoded : (if request.compact then c.compactString request.policy else c.fileString request.policy) = .ok s

theorem encodes_iff : request.Encodes w c s ↔
    loadCircuit request.input (w.access request.input) = .ok c ∧ request.text c = .ok s := by
  have hforeign : isForeign request.input = false ↔
      ∀ ext, Path.HasExtension request.input ext → ext.toLower ∉ ["qasm", "qasm3"] := by
    rw [← Bool.not_eq_true, isForeign_iff, not_exists]
    exact forall_congr' fun ext => not_and
  rw [loadCircuit_eq_ok_iff, hforeign]
  exact ⟨fun h => ⟨⟨h.native, h.loaded⟩, h.encoded⟩, fun h => ⟨h.1.1, h.1.2, h.2⟩⟩

theorem Encodes.not_fails (h : request.Encodes w c s) : ¬ request.Fails w := by
  obtain ⟨text, haccess, hload⟩ := h.loaded
  have hsame : ∀ {text' : String}, w.access request.input = .present (.ok text'.toUTF8) → text' = text := by
    intro text' haccess'
    have hbytes := Except.ok.inj (Access.present.inj (haccess'.symm.trans haccess))
    exact Option.some.inj ((fromUTF8?_eq_some_iff.mpr hbytes.symm).symm.trans (fromUTF8?_eq_some_iff.mpr rfl))
  intro hfails
  cases hfails with
  | missing hmissing =>
    rw [haccess] at hmissing
    cases hmissing
  | foreign ext hext hmem => exact h.native ext hext hmem
  | unreadable fault hfault =>
    rw [haccess] at hfault
    cases hfault
  | notText bytes hbytes hno =>
    rw [haccess] at hbytes
    exact hno text (Except.ok.inj (Access.present.inj hbytes)).symm
  | notLoaded text' e htext he =>
    obtain rfl := hsame htext
    rw [hload] at he
    cases he
  | notEncoded text' c' e htext hc' he =>
    obtain rfl := hsame htext
    obtain rfl := Except.ok.inj (hload.symm.trans hc')
    rw [h.encoded] at he
    cases he

/-- A file that is there, with a text of a circuit that can be written, is all that is needed. -/
theorem fails_or_encodes (request : EncodeRequest) (w : World) :
    request.Fails w ∨ ∃ c s, request.Encodes w c s := by
  cases haccess : w.access request.input with
  | missing => exact Or.inl (.missing haccess)
  | present content =>
    by_cases hforeign : ∃ ext, Path.HasExtension request.input ext ∧ ext.toLower ∈ ["qasm", "qasm3"]
    · obtain ⟨ext, hext, hmem⟩ := hforeign
      exact Or.inl (.foreign ext hext hmem)
    cases content with
    | error fault => exact Or.inl (.unreadable fault haccess)
    | ok bytes =>
      by_cases htext : ∃ text : String, bytes = text.toUTF8
      · obtain ⟨text, rfl⟩ := htext
        cases hload : Circuit.ofJson text with
        | error e => exact Or.inl (.notLoaded text e haccess hload)
        | ok c =>
          cases hs : (if request.compact then c.compactString request.policy else c.fileString request.policy) with
          | error e => exact Or.inl (.notEncoded text c e haccess hload hs)
          | ok s => exact Or.inr ⟨c, s, fun ext hext hmem => hforeign ⟨ext, hext, hmem⟩, ⟨text, haccess, hload⟩, hs⟩
      · exact Or.inl (.notText bytes haccess fun text h => htext ⟨text, h⟩)

/-! ## Runs -/

/-- A request that fails leaves nothing but messages. -/
theorem encode_of_fails (color : Bool) (v : Nat) (h : request.Fails w) :
    ((encode color v request).runIn w).1 = 1 ∧ w.Alike ((encode color v request).runIn w).2 := by
  rw [encode, Task.runIn]
  cases hload : loadCircuit request.input (w.access request.input) with
  | error reasons => exact ⟨rfl, .print_stderr _ _⟩
  | ok c =>
    cases hs : request.text c with
    | ok s => exact absurd h (encodes_iff.mpr ⟨hload, hs⟩).not_fails
    | error e =>
      simp only [Task.runIn, encodeCircuit, hs]
      exact ⟨rfl, (World.Alike.print_stderr _ _).trans (.print_stderr _ _)⟩

/-- Besides the log, the run of a request is that of the encoding alone. -/
theorem Encodes.runIn_alike (h : request.Encodes w c s) (color : Bool) (v : Nat) :
    ((encode color v request).runIn w).1 = ((encodeCircuit color request c).runIn w).1 ∧
      ((encodeCircuit color request c).runIn w).2.Alike ((encode color v request).runIn w).2 := by
  have hlogged := World.Alike.print_stderr w (unlines (logLines v request c))
  obtain ⟨hstatus, halike⟩ := Task.runIn_alike (encodeCircuit color request c) hlogged
  rw [encode, Task.runIn, (encodes_iff.mp h).1]
  exact ⟨hstatus.symm, halike⟩

theorem runIn_of_no_output (color : Bool) (hs : request.text c = .ok s) (ho : request.output = none) :
    (encodeCircuit color request c).runIn w = (0, w.print .stdout (s ++ "\n")) := by
  have hline : unlines [s] = s ++ "\n" := by simp [unlines, String.join]
  rw [encodeCircuit, hs, ho]
  simp only [succeed, Task.runIn, hline]

/-- A write that fails is reported, and so is one that succeeds. -/
theorem runIn_of_output (color : Bool) {output : String} (hs : request.text c = .ok s)
    (ho : request.output = some output) :
    (∃ fault message, w.write output s = .error fault ∧
        (encodeCircuit color request c).runIn w = (1, w.print .stderr message)) ∨
      ∃ written, w.write output s = .ok written ∧ (encodeCircuit color request c).runIn w =
        (0, written.print .stdout (unlines (report color request c output))) := by
  rw [encodeCircuit, hs, ho]
  simp only [Task.runIn]
  cases w.write output s with
  | error fault => exact Or.inl ⟨fault, _, rfl, rfl⟩
  | ok written => exact Or.inr ⟨written, rfl, rfl⟩

/-- The log is all that depends on the verbosity. -/
theorem encode_alike (request : EncodeRequest) (color : Bool) (v v' : Nat) (w : World) :
    ((encode color v request).runIn w).1 = ((encode color v' request).runIn w).1 ∧
      ((encode color v request).runIn w).2.Alike ((encode color v' request).runIn w).2 := by
  rw [encode, encode, Task.runIn, Task.runIn]
  cases loadCircuit request.input (w.access request.input) with
  | error reasons => exact ⟨rfl, ⟨rfl, rfl⟩, rfl⟩
  | ok c =>
    simp only [Task.runIn]
    exact Task.runIn_alike _ ⟨⟨rfl, rfl⟩, rfl⟩

end EncodeRequest

theorem run_of_read {arguments : List String} {v : Nat} {request : EncodeRequest}
    (h : Invocation.read arguments = .ok ⟨v, .encode request⟩) (color : Bool) :
    run color arguments = encode color v request := by
  rw [run, h]

/-- **What `encode` leaves**: a request that fails has status 1 and changes nothing, neither a file nor the standard
output. Any other gives the encoding: on the standard output, with a line break, if no output file is asked for; else in
that file and without one, and no other file changes. If that file cannot be written, the run fails like the others. The
number of `-v` on the command line is of no consequence for any of this. -/
theorem run_encode {arguments : List String} {v : Nat} {request : EncodeRequest}
    (h : Invocation.read arguments = .ok ⟨v, .encode request⟩) (color : Bool) (w : World) :
    let status := ((run color arguments).runIn w).1
    let w' := ((run color arguments).runIn w).2
    (request.Fails w ∨ ∃ c s, request.Encodes w c s) ∧
      (request.Fails w → status = 1 ∧ w'.stdout = w.stdout ∧ w'.entries = w.entries) ∧
      (∀ c s, request.Encodes w c s →
        (request.output = none → status = 0 ∧ w'.stdout = w.stdout ++ s ++ "\n" ∧ w'.entries = w.entries) ∧
        ∀ output, request.output = some output →
          (∃ fault, w.write output s = .error fault ∧ status = 1 ∧ w'.stdout = w.stdout ∧ w'.entries = w.entries) ∨
          (∃ written, w.write output s = .ok written) ∧ status = 0 ∧ (w.Keeps →
            w'.stdout = w.stdout ++ unlines (report color request c output) ∧
            w'.access output = .present (.ok s.toUTF8) ∧
            ∃ place, w'.find? place = some (.file s.toUTF8) ∧ ∀ q, q ≠ place → w'.find? q = w.find? q)) ∧
      (∀ k, ∃ v', Invocation.read (List.replicate k "-v" ++ arguments) = .ok ⟨v', .encode request⟩) ∧
      ∀ arguments' v', Invocation.read arguments' = .ok ⟨v', .encode request⟩ →
        ((run color arguments').runIn w).1 = status ∧
          ((run color arguments').runIn w).2.stdout = w'.stdout ∧
          ((run color arguments').runIn w).2.entries = w'.entries := by
  rw [run_of_read h]
  intro status w'
  refine ⟨request.fails_or_encodes w, fun hfails => ?_, fun c s hs => ⟨fun ho => ?_, fun output ho => ?_⟩,
    fun k => Invocation.exists_read_verbose h k, fun arguments' v' h' => ?_⟩
  · obtain ⟨hstatus, halike⟩ := EncodeRequest.encode_of_fails color v hfails
    exact ⟨hstatus, halike.stdout_eq.symm, halike.entries_eq.symm⟩
  · obtain ⟨hstatus, halike⟩ := hs.runIn_alike color v
    rw [EncodeRequest.runIn_of_no_output color hs.encoded ho] at hstatus halike
    refine ⟨hstatus, ?_, halike.entries_eq.symm⟩
    rw [String.append_assoc]
    exact halike.stdout_eq.symm
  · obtain ⟨hstatus, halike⟩ := hs.runIn_alike color v
    have hcases := EncodeRequest.runIn_of_output (w := w) color hs.encoded ho
    rcases hcases with ⟨fault, message, hwrite, hrun⟩ | ⟨written, hwrite, hrun⟩
    · rw [hrun] at hstatus halike
      exact Or.inl ⟨fault, hwrite, hstatus, halike.stdout_eq.symm, halike.entries_eq.symm⟩
    · rw [hrun] at hstatus halike
      refine Or.inr ⟨⟨written, hwrite⟩, hstatus, fun hkeeps => ?_⟩
      obtain ⟨haccess, hstdout, place, hfile, hother⟩ := World.access_write hkeeps hwrite
      have htree := (World.SameTree.print written .stdout _).trans halike.toSameTree
      refine ⟨?_, ?_, place, ?_, fun q hq => ?_⟩
      · rw [← hstdout]
        exact halike.stdout_eq.symm
      · rw [← htree.access_eq, haccess]
      · rw [← htree.find?_eq, hfile]
      · rw [← htree.find?_eq, hother q hq]
  · have halike := request.encode_alike color v' v w
    rw [run_of_read h']
    exact ⟨halike.1, halike.2.stdout_eq, halike.2.entries_eq⟩

/-- One line replaces an old output file, the other has a file in another language. -/
theorem run_encode_replaced :
    let source := "\x7b\"num_qubits\": 2, \"instructions\": [\x7b\"gate\": \"cx\", \"qubits\": [0, 1]\x7d]\x7d"
    let w : World := { entries := [(["a.json"], .file source.toUTF8), (["old.Qasm"], .file source.toUTF8),
      (["out.quic"], .file "old".toUTF8)] }
    let request : EncodeRequest := ⟨"a.json", some "out.quic", true, .strict⟩
    let foreign : EncodeRequest := ⟨"./old.Qasm", none, false, .lenient⟩
    let arguments := ["encode", "-i", "a.json", "-o", "out.quic", "--compact"]
    let arguments' := ["-vv", "encode", "--lenient-params", "--input=./old.Qasm", "-v"]
    let left := (run false arguments).runIn w
    let left' := (run false arguments').runIn w
    Invocation.read arguments = .ok ⟨0, .encode request⟩ ∧ Invocation.read arguments' = .ok ⟨1, .encode foreign⟩ ∧
      w.Keeps ∧
      (∃ c, request.Encodes w c "CX" ∧ left.1 = 0 ∧
        left.2.stdout = w.stdout ++ unlines (report false request c "out.quic") ∧
        left.2.access "out.quic" = .present (.ok "CX".toUTF8) ∧
        ∃ place, left.2.find? place = some (.file "CX".toUTF8) ∧ ∀ q, q ≠ place → left.2.find? q = w.find? q) ∧
      foreign.Fails w ∧ left'.1 = 1 ∧ left'.2.stdout = w.stdout ∧ left'.2.entries = w.entries := by
  intro source w request foreign arguments arguments' left left'
  have hread : Invocation.read arguments = .ok ⟨0, .encode request⟩ := rfl
  have hread' : Invocation.read arguments' = .ok ⟨1, .encode foreign⟩ := rfl
  have hkeeps : w.Keeps := World.keeps_of_entries (by simp [w])
  have hfails : foreign.Fails w := by
    have hext : Path.HasExtension "./old.Qasm" "Qasm" :=
      ⟨"old.Qasm", ['o', 'l', 'd'], rfl, by decide, by decide, by decide, rfl⟩
    exact .foreign "Qasm" hext (by decide +kernel)
  have hencodes : ∃ c, request.Encodes w c "CX" := by
    have hloaded : ((Circuit.ofJson source).toOption.any fun c =>
        decide ((c.compactString .strict).toOption = some "CX")) = true := by
      decide +kernel +zetaReduce
    have haccess : w.access "a.json" = .present (.ok source.toUTF8) := rfl
    have hjson : extension? "a.json" = some "json" := rfl
    cases hload : Circuit.ofJson source with
    | error e =>
      rw [hload] at hloaded
      cases hloaded
    | ok c =>
      rw [hload] at hloaded
      have hcompact := of_decide_eq_true hloaded
      cases hs : c.compactString .strict with
      | error e =>
        rw [hs] at hcompact
        cases hcompact
      | ok s =>
        rw [hs] at hcompact
        obtain rfl := Option.some.inj hcompact
        refine ⟨c, fun ext hext => ?_, ⟨source, haccess, hload⟩, hs⟩
        obtain rfl := Option.some.inj (hjson.symm.trans (extension?_eq_some_iff.mpr hext))
        decide +kernel
  refine ⟨hread, hread', hkeeps, ?_, hfails, (run_encode hread' false w).2.1 hfails⟩
  obtain ⟨c, hc⟩ := hencodes
  obtain ⟨written, hwritten⟩ : ∃ written, w.write "out.quic" "CX" = .ok written := ⟨_, rfl⟩
  rcases ((run_encode hread false w).2.2.1 c "CX" hc).2 "out.quic" rfl with ⟨fault, hfault, -⟩ | ⟨-, hstatus, hleft⟩
  · rw [hfault] at hwritten
    cases hwritten
  · exact ⟨c, hc, hstatus, hleft hkeeps⟩

end GateGrid.CommandLine
