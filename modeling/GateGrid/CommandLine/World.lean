/-!
# Files and tasks

* `World`: a tree of directories, files and what else has a path, a working directory, and two output streams.
* `Task`: a computation that reads and writes files and prints; `Task.runIn` runs one in a world.
-/

namespace GateGrid.CommandLine

/-- Names from the root down. -/
abbrev Path := List String

/-- Why a file cannot be used. -/
inductive FileFault where
  | notFound
  | notADirectory
  | isADirectory
  | noSpace
  | nameTooLong
  | notText
  /-- Any other reason, in words. -/
  | refused (reason : String)
deriving DecidableEq

def FileFault.message : FileFault → String
  | .notFound => "No such file or directory (os error 2)"
  | .notADirectory => "Not a directory (os error 20)"
  | .isADirectory => "Is a directory (os error 21)"
  | .noSpace => "No space left on device (os error 28)"
  | .nameTooLong => "File name too long (os error 36)"
  | .notText => "stream did not contain valid UTF-8"
  | .refused reason => reason

/-- The output streams of a program. -/
inductive Stream where
  | stdout
  | stderr
deriving DecidableEq

inductive Entry where
  | file (content : ByteArray)
  /-- New entries can be made in it, unless it is closed. -/
  | directory (isOpen : Bool)
  /-- Reads as its content and keeps nothing that is written to it, if it has room for it at all. -/
  | device (content : ByteArray) (hasRoom : Bool)
  | stream (stream : Stream)
  /-- Is there, but cannot be opened. -/
  | unusable (fault : FileFault)
  /-- Stands for another place, which is no link. -/
  | link (target : Path)

/-- The entries of a tree by their paths, and what has been printed. The root itself has no entry. -/
structure World where
  workingDirectory : Path := []
  entries : List (Path × Entry) := []
  stdout : String := ""
  stderr : String := ""

/-! ### Paths as they are written -/

namespace Path

/-- The longest name of an entry, in bytes. -/
def maxName : Nat := 255

/-- The longest path that can be asked for, in bytes. -/
def maxLength : Nat := 4095

/-- The names between the slashes of a path; where two slashes meet there is none. -/
def names (path : String) : List String :=
  let rec split : List Char → List (List Char)
    | [] => [[]]
    | '/' :: rest => [] :: split rest
    | c :: rest =>
      match split rest with
      | [] => [[c]]
      | name :: others => (c :: name) :: others
  ((split path.toList).filter (!·.isEmpty)).map String.ofList

def startsAtRoot (path : String) : Bool :=
  path.toList.head? == some '/'

def endsInSlash (path : String) : Bool :=
  path.toList.getLast? == some '/'

/-- The name leads to a directory that is there already. -/
def isDots (name : String) : Bool :=
  name == "." || name == ".."

/-- From a directory to what a name stands for in it. -/
def step (place : Path) (name : String) : Except FileFault Path :=
  if name = "." then .ok place
  else if name = ".." then .ok place.dropLast
  else if maxName < name.utf8ByteSize then .error .nameTooLong
  else .ok (place ++ [name])

end Path

namespace World

/-! ### Entries -/

def find? (w : World) (place : Path) : Option Entry :=
  if place.isEmpty then some (.directory true) else (w.entries.find? (·.1 == place)).map (·.2)

/-- Replaces the entry of a place. -/
def insert (w : World) (place : Path) (entry : Entry) : World :=
  { w with entries := (place, entry) :: w.entries.filter (·.1 != place) }

/-- The place itself, or the one that its link stands for. -/
def resolve (w : World) (place : Path) : Path :=
  match w.find? place with
  | some (.link target) => target
  | _ => place

def print (w : World) (stream : Stream) (text : String) : World :=
  match stream with
  | .stdout => { w with stdout := w.stdout ++ text }
  | .stderr => { w with stderr := w.stderr ++ text }

/-! ### Use by path -/

/-- Goes from directory to directory. The last name need not stand for anything. -/
def walk (w : World) (place : Path) : List String → Except FileFault Path
  | [] => .ok place
  | name :: rest =>
    match w.find? place with
    | some (.directory _) => do w.walk (w.resolve (← Path.step place name)) rest
    | some _ => .error .notADirectory
    | none => .error .notFound

/-- Where a path starts. -/
def start (w : World) (path : String) : Path :=
  if Path.startsAtRoot path then [] else w.workingDirectory

/-- What no path may be. -/
def checkPath (path : String) : Except FileFault Unit :=
  if path.isEmpty then .error .notFound
  else if Path.maxLength < path.utf8ByteSize then .error .nameTooLong
  else .ok ()

/-- The entry that a path leads to. A slash at its end asks for a directory. -/
def lookup (w : World) (path : String) : Except FileFault Entry := do
  checkPath path
  match w.find? (← w.walk (w.start path) (Path.names path)) with
  | none => throw .notFound
  | some (.directory isOpen) => return .directory isOpen
  | some entry => if Path.endsInSlash path then throw .notADirectory else return entry

/-- Writes to a place. A new file can only be made in an open directory. -/
def put (w : World) (place : Path) (text : String) : Except FileFault World :=
  match w.find? place with
  | some (.directory _) => .error .isADirectory
  | some (.device _ hasRoom) => if hasRoom ∨ text.isEmpty then .ok w else .error .noSpace
  | some (.stream stream) => .ok (w.print stream text)
  | some (.file _) => .ok (w.insert place (.file text.toUTF8))
  | some (.unusable fault) => .error fault
  | some (.link _) => .error .notFound
  | none =>
    match w.find? place.dropLast with
    | some (.directory true) => .ok (w.insert place (.file text.toUTF8))
    | _ => .error .notFound

/-- Writes a file, in a directory that must exist. -/
def write (w : World) (path text : String) : Except FileFault World := do
  checkPath path
  match (Path.names path).getLast? with
  | none => throw .isADirectory
  | some name =>
    let parent ← w.walk (w.start path) (Path.names path).dropLast
    match w.find? parent with
    | some (.directory _) =>
      if Path.isDots name ∨ Path.endsInSlash path then throw .isADirectory
      w.put (w.resolve (← Path.step parent name)) text
    | some _ => throw .notADirectory
    | none => throw .notFound

end World

/-! ### Tasks -/

/-- What is known about a path before it is used. -/
inductive Access where
  | missing
  | present (content : Except FileFault ByteArray)

/-- A computation that may read and write files and print. -/
inductive Task (α : Type) where
  | done (result : α)
  | read (path : String) (next : Access → Task α)
  | write (path text : String) (next : Option FileFault → Task α)
  | print (stream : Stream) (text : String) (next : Task α)

def World.access (w : World) (path : String) : Access :=
  match w.lookup path with
  | .error _ => .missing
  | .ok (.directory _) => .present (.error .isADirectory)
  | .ok (.file content) => .present (.ok content)
  | .ok (.device content _) => .present (.ok content)
  | .ok (.stream _) => .present (.ok .empty)
  | .ok (.unusable fault) => .present (.error fault)
  | .ok (.link _) => .missing

/-- Runs a task in a world, which only printing and successful writes change. -/
def Task.runIn {α : Type} (w : World) : Task α → α × World
  | .done result => (result, w)
  | .read path next => (next (w.access path)).runIn w
  | .write path text next =>
    match w.write path text with
    | .ok w => (next none).runIn w
    | .error fault => (next (some fault)).runIn w
  | .print stream text next => next.runIn (w.print stream text)

end GateGrid.CommandLine
