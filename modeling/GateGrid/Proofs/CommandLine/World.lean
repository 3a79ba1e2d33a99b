import Mathlib.Data.List.Basic
import GateGrid.CommandLine.World
import GateGrid.Proofs.Except

/-!
# What a task can change

* `World.find?_insert_self`, `World.find?_insert_of_ne`: an insertion changes one place.
* `World.Leads w path place`: the path goes to the place and does not ask for a directory.
* `World.Keeps`: no place passes on or drops what is written to it, as devices and streams do. A world of files and
  directories is such a world.
* `World.access_write`: in such a world a write that succeeds leaves a file with the text where the path leads, and
  every other place as it was.
* `World.SameTree`: worlds where every path leads to the same entry.
* `World.Alike`: worlds that differ in nothing but what has been printed to the error stream. No task tells them apart
  (`Task.runIn_alike`).
-/

namespace GateGrid.CommandLine

namespace World

variable {w w' : World} {path text : String} {place q : Path}

/-! ## Entries -/

theorem find?_cons (w : World) (name : String) (rest : Path) :
    w.find? (name :: rest) = (w.entries.find? (·.1 == name :: rest)).map (·.2) := rfl

theorem find?_insert_self (hplace : place ≠ []) (entry : Entry) : (w.insert place entry).find? place = some entry := by
  obtain ⟨name, rest, rfl⟩ := List.exists_cons_of_ne_nil hplace
  simp only [find?_cons, insert]
  rw [List.find?_cons_of_pos (by simp), Option.map_some]

theorem find?_insert_of_ne (h : q ≠ place) (entry : Entry) : (w.insert place entry).find? q = w.find? q := by
  cases q with
  | nil => rfl
  | cons name rest =>
    simp only [find?_cons, insert]
    rw [List.find?_cons_of_neg (by simpa using h.symm), List.find?_filter]
    -- the entries that make way stand at another place
    congr 2
    funext entry
    by_cases he : entry.1 = name :: rest
    · simp [he, h]
    · simp [he]

/-! ## Walks -/

theorem walk_cons_eq_ok {name : String} {rest : List String} :
    w.walk place (name :: rest) = .ok q ↔ (∃ isOpen, w.find? place = some (.directory isOpen)) ∧
      ∃ next, Path.step place name = .ok next ∧ w.walk (w.resolve next) rest = .ok q := by
  rw [walk]
  split
  · rename_i isOpen hdirectory
    simp [Except.bind_eq_ok_iff, hdirectory]
  · rename_i entry hother hentry
    simp only [reduceCtorEq, false_iff, not_and]
    rintro ⟨isOpen, hdirectory⟩
    exact absurd (hentry.symm.trans hdirectory) (by simpa using hother isOpen)
  · rename_i hnone
    simp [hnone]

theorem walk_concat_eq_ok {names : List String} {name : String} :
    w.walk place (names ++ [name]) = .ok q ↔ ∃ parent, w.walk place names = .ok parent ∧
      (∃ isOpen, w.find? parent = some (.directory isOpen)) ∧
        ∃ next, Path.step parent name = .ok next ∧ w.resolve next = q := by
  induction names generalizing place with
  | nil =>
    rw [List.nil_append, walk_cons_eq_ok]
    constructor
    · rintro ⟨hdirectory, next, hstep, hq⟩
      exact ⟨place, rfl, hdirectory, next, hstep, Except.ok.inj hq⟩
    · rintro ⟨parent, hparent, hdirectory, next, hstep, rfl⟩
      obtain rfl := Except.ok.inj hparent
      exact ⟨hdirectory, next, hstep, rfl⟩
  | cons first rest ih =>
    rw [List.cons_append, walk_cons_eq_ok]
    constructor
    · rintro ⟨hdirectory, next, hstep, hrest⟩
      obtain ⟨parent, hparent, hlast⟩ := ih.mp hrest
      exact ⟨parent, walk_cons_eq_ok.mpr ⟨hdirectory, next, hstep, hparent⟩, hlast⟩
    · rintro ⟨parent, hparent, hlast⟩
      obtain ⟨hdirectory, next, hstep, hrest⟩ := walk_cons_eq_ok.mp hparent
      exact ⟨hdirectory, next, hstep, ih.mpr ⟨parent, hrest, hlast⟩⟩

/-- The path may be asked for, goes to the place and does not ask for a directory. -/
structure Leads (w : World) (path : String) (place : Path) : Prop where
  checked : checkPath path = .ok ()
  walked : w.walk (w.start path) (Path.names path) = .ok place
  not_slash : Path.endsInSlash path = false

theorem lookup_of_leads (h : w.Leads path place) {content : ByteArray} (hfile : w.find? place = some (.file content)) :
    w.lookup path = .ok (.file content) := by
  refine Except.check_bind_eq_ok_iff.mpr ⟨h.checked, Except.bind_eq_ok_iff.mpr ⟨place, h.walked, ?_⟩⟩
  simp [hfile, h.not_slash, Except.pure_eq_ok_iff]

/-! ## Writes -/

/-- A write goes where the path leads. -/
theorem write_eq_ok (h : w.write path text = .ok w') : ∃ place, w.Leads path place ∧ w.put place text = .ok w' := by
  obtain ⟨hchecked, h⟩ := Except.check_bind_eq_ok_iff.mp h
  split at h
  · cases h
  rename_i name hname
  obtain ⟨parent, hparent, h⟩ := Except.bind_eq_ok_iff.mp h
  split at h
  · rename_i isOpen hdirectory
    split at h
    · cases h
    rename_i hplain
    rw [not_or] at hplain
    obtain ⟨next, hstep, hput⟩ := Except.bind_eq_ok_iff.mp h
    refine ⟨w.resolve next, ⟨hchecked, ?_, eq_false_of_ne_true hplain.2⟩, hput⟩
    rw [← List.dropLast_append_getLast? name hname]
    exact walk_concat_eq_ok.mpr ⟨parent, hparent, ⟨isOpen, hdirectory⟩, next, hstep, rfl⟩
  · cases h
  · cases h

/-- No place takes what is written to it elsewhere, as devices and streams do. -/
def Keeps (w : World) : Prop :=
  ∀ place, (∀ content hasRoom, w.find? place ≠ some (.device content hasRoom)) ∧
    ∀ stream, w.find? place ≠ some (.stream stream)

/-- The entries of files and directories keep what is written. -/
theorem keeps_of_entries (h : ∀ p ∈ w.entries, (∃ content, p.2 = .file content) ∨ ∃ isOpen, p.2 = .directory isOpen) :
    w.Keeps := by
  have hentry : ∀ place entry, w.find? place = some entry →
      (∃ content, entry = .file content) ∨ ∃ isOpen, entry = .directory isOpen := by
    intro place entry hfind
    cases place with
    | nil => exact Or.inr ⟨true, (Option.some.inj hfind).symm⟩
    | cons name rest =>
      rw [find?_cons, Option.map_eq_some_iff] at hfind
      obtain ⟨p, hp, rfl⟩ := hfind
      exact h p (List.mem_of_find?_eq_some hp)
  refine fun place => ⟨fun content hasRoom hfind => ?_, fun stream hfind => ?_⟩
  · rcases hentry place _ hfind with ⟨_, he⟩ | ⟨_, he⟩ <;> cases he
  · rcases hentry place _ hfind with ⟨_, he⟩ | ⟨_, he⟩ <;> cases he

/-- What is written replaces a file, or makes one where nothing was. -/
theorem put_eq_ok (hkeeps : w.Keeps) (h : w.put place text = .ok w') :
    w' = w.insert place (.file text.toUTF8) ∧
      ((∃ content, w.find? place = some (.file content)) ∨ w.find? place = none) := by
  unfold put at h
  split at h
  · cases h
  · rename_i content hasRoom hdevice
    exact absurd hdevice ((hkeeps place).1 content hasRoom)
  · rename_i stream hstream
    exact absurd hstream ((hkeeps place).2 stream)
  · rename_i content hfile
    exact ⟨(Except.ok.inj h).symm, Or.inl ⟨content, hfile⟩⟩
  · cases h
  · cases h
  · rename_i hnone
    split at h
    · exact ⟨(Except.ok.inj h).symm, Or.inr hnone⟩
    · cases h

section Insert

variable (hfree : (∃ content, w.find? place = some (.file content)) ∨ w.find? place = none) (bytes : ByteArray)
include hfree

theorem find?_insert_directory {isOpen : Bool} (h : w.find? q = some (.directory isOpen)) :
    (w.insert place (.file bytes)).find? q = some (.directory isOpen) := by
  have hne : q ≠ place := by
    rintro rfl
    rcases hfree with ⟨content, hfile⟩ | hnone
    · rw [hfile] at h
      cases h
    · rw [hnone] at h
      cases h
  rw [find?_insert_of_ne hne, h]

/-- A file is no link, nor is what it replaces. -/
theorem resolve_insert (q : Path) : (w.insert place (.file bytes)).resolve q = w.resolve q := by
  by_cases hq : q = place
  · subst hq
    have hplace : q ≠ [] := by
      rintro rfl
      rcases hfree with ⟨content, hroot⟩ | hroot <;> cases hroot
    rw [resolve, find?_insert_self hplace, resolve]
    rcases hfree with ⟨content, hfile⟩ | hnone
    · rw [hfile]
    · rw [hnone]
  · rw [resolve, find?_insert_of_ne hq, resolve]

/-- The directories on a way are there after the insertion too. -/
theorem walk_insert {names : List String} {start : Path} (h : w.walk start names = .ok q) :
    (w.insert place (.file bytes)).walk start names = .ok q := by
  induction names generalizing start with
  | nil => exact h
  | cons name rest ih =>
    obtain ⟨⟨isOpen, hdirectory⟩, next, hstep, hrest⟩ := walk_cons_eq_ok.mp h
    refine walk_cons_eq_ok.mpr ⟨⟨isOpen, find?_insert_directory hfree bytes hdirectory⟩, next, hstep, ?_⟩
    rw [resolve_insert hfree]
    exact ih hrest

theorem Leads.insert (h : w.Leads path q) : (w.insert place (.file bytes)).Leads path q :=
  ⟨h.checked, walk_insert hfree bytes h.walked, h.not_slash⟩

end Insert

/-- **What a write leaves**: the text where the path leads, all other places and the output streams as they were. -/
theorem access_write (hkeeps : w.Keeps) (h : w.write path text = .ok w') :
    w'.access path = .present (.ok text.toUTF8) ∧ w'.stdout = w.stdout ∧
      ∃ place, w'.find? place = some (.file text.toUTF8) ∧ ∀ q, q ≠ place → w'.find? q = w.find? q := by
  obtain ⟨place, hleads, hput⟩ := write_eq_ok h
  obtain ⟨rfl, hfree⟩ := put_eq_ok hkeeps hput
  have hplace : place ≠ [] := by
    rintro rfl
    rcases hfree with ⟨content, hroot⟩ | hroot <;> cases hroot
  have hfile := find?_insert_self (w := w) hplace (.file text.toUTF8)
  refine ⟨?_, rfl, place, hfile, fun q hq => find?_insert_of_ne hq _⟩
  rw [access, lookup_of_leads (hleads.insert hfree text.toUTF8) hfile]

/-! ## The error stream -/

/-- The entries are the same, and what paths are relative to. -/
structure SameTree (w w' : World) : Prop where
  workingDirectory_eq : w.workingDirectory = w'.workingDirectory
  entries_eq : w.entries = w'.entries

/-- The worlds differ at most in what has been printed to the error stream. -/
structure Alike (w w' : World) : Prop extends SameTree w w' where
  stdout_eq : w.stdout = w'.stdout

/-- Both succeed and leave worlds that are alike, or both fail for the same reason. -/
inductive AlikeResults : Except FileFault World → Except FileFault World → Prop where
  | ok {w w' : World} : w.Alike w' → AlikeResults (.ok w) (.ok w')
  | error (fault : FileFault) : AlikeResults (.error fault) (.error fault)

/-- A step in front that does not look at the world. -/
theorem AlikeResults.bind {α : Type} {x : Except FileFault α} {f g : α → Except FileFault World}
    (h : ∀ a, AlikeResults (f a) (g a)) : AlikeResults (x >>= f) (x >>= g) := by
  cases x with
  | error fault => exact .error fault
  | ok a => exact h a

namespace SameTree

theorem trans {w₁ w₂ w₃ : World} (h : w₁.SameTree w₂) (h' : w₂.SameTree w₃) : w₁.SameTree w₃ :=
  ⟨h.workingDirectory_eq.trans h'.workingDirectory_eq, h.entries_eq.trans h'.entries_eq⟩

theorem print (w : World) (stream : Stream) (text : String) : w.SameTree (w.print stream text) := by
  cases stream <;> exact ⟨rfl, rfl⟩

theorem find?_eq (h : w.SameTree w') (place : Path) : w.find? place = w'.find? place := by
  rw [find?, find?, h.entries_eq]

theorem walk_eq (h : w.SameTree w') (place : Path) (names : List String) :
    w.walk place names = w'.walk place names := by
  induction names generalizing place with
  | nil => rfl
  | cons name rest ih => simp only [walk, resolve, h.find?_eq, ih]

theorem start_eq (h : w.SameTree w') (path : String) : w.start path = w'.start path := by
  rw [start, start, h.workingDirectory_eq]

theorem access_eq (h : w.SameTree w') (path : String) : w.access path = w'.access path := by
  simp only [access, lookup, h.start_eq, h.walk_eq, h.find?_eq]

end SameTree

namespace Alike

theorem print_stderr (w : World) (text : String) : w.Alike (w.print .stderr text) := ⟨⟨rfl, rfl⟩, rfl⟩

theorem trans {w₁ w₂ w₃ : World} (h : w₁.Alike w₂) (h' : w₂.Alike w₃) : w₁.Alike w₃ :=
  ⟨h.toSameTree.trans h'.toSameTree, h.stdout_eq.trans h'.stdout_eq⟩

theorem print (h : w.Alike w') (stream : Stream) (text : String) :
    (w.print stream text).Alike (w'.print stream text) := by
  cases stream with
  | stdout => exact ⟨⟨h.workingDirectory_eq, h.entries_eq⟩, congrArg (· ++ text) h.stdout_eq⟩
  | stderr => exact ⟨⟨h.workingDirectory_eq, h.entries_eq⟩, h.stdout_eq⟩

theorem insert (h : w.Alike w') (place : Path) (entry : Entry) : (w.insert place entry).Alike (w'.insert place entry) :=
  ⟨⟨h.workingDirectory_eq, by rw [World.insert, World.insert, h.entries_eq]⟩, h.stdout_eq⟩

theorem put (h : w.Alike w') (place : Path) (text : String) : AlikeResults (w.put place text) (w'.put place text) := by
  rw [World.put, World.put, h.find?_eq, h.find?_eq]
  split
  · exact .error _
  · split
    · exact .ok h
    · exact .error _
  · exact .ok (h.print _ _)
  · exact .ok (h.insert _ _)
  · exact .error _
  · exact .error _
  · split
    · exact .ok (h.insert _ _)
    · exact .error _

theorem write (h : w.Alike w') (path text : String) : AlikeResults (w.write path text) (w'.write path text) := by
  simp only [World.write, h.start_eq, h.walk_eq, h.find?_eq, resolve]
  refine .bind fun _ => ?_
  split
  · exact .error _
  refine .bind fun parent => ?_
  split
  · split
    · exact .error _
    · exact .bind fun _ => h.put _ _
  · exact .error _
  · exact .error _

end Alike

end World

/-- A task gives the same result in worlds that are alike, and leaves worlds that are alike. -/
theorem Task.runIn_alike {α : Type} (task : Task α) {w w' : World} (h : w.Alike w') :
    (task.runIn w).1 = (task.runIn w').1 ∧ (task.runIn w).2.Alike (task.runIn w').2 := by
  induction task generalizing w w' with
  | done result => exact ⟨rfl, h⟩
  | read path next ih =>
    rw [runIn, runIn, h.access_eq]
    exact ih _ h
  | write path text next ih =>
    have hwrite := h.write path text
    rw [runIn, runIn]
    generalize w.write path text = result at hwrite
    generalize w'.write path text = result' at hwrite
    cases hwrite with
    | ok halike => exact ih none halike
    | error fault => exact ih (some fault) h
  | print stream text next ih => exact ih (h.print stream text)

end GateGrid.CommandLine
