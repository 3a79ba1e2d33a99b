import GateGrid.Circuit.Basic
import GateGrid.Script.Log
import GateGrid.Text.Control

/-!
# Log lines

How the log shows: the level, the span that has been entered, the message and the fields of the record.
-/

namespace GateGrid

/-- The least verbosity at which a level is shown. -/
def Level.verbosity : Level → Nat
  | .info => 1
  | .debug => 2
  | .trace => 3

/-- The level, flush right in five columns. -/
def Level.mark : Level → String
  | .info => " INFO"
  | .debug => "DEBUG"
  | .trace => "TRACE"

namespace Event

/-- The fields behind the message. -/
def fields : Event → String
  | .encoded symbol row => s!" gate={Text.quoted symbol.name} row=" ++ String.ofList row
  | _ => ""

/-- The line of a record in a span. -/
def line (span : String) (e : Event) : String :=
  e.level.mark ++ span ++ " " ++ Text.spelledOut e.message ++ e.fields

end Event

/-- The line that says that a circuit has been loaded. -/
def loadedLine (path : String) (c : Circuit) : String :=
  Level.info.mark ++ " " ++
    Text.spelledOut s!"Loaded {path}: {c.numQubits.toNat} qubits, {c.instructions.length} instructions"

/-- How the span of a circuit's encoding shows in front of a message. It has no level of its own to be hidden at, since
every record in it is more of a detail than the span is. -/
def spanMark (circuit : String) : String :=
  " encode_file_string\x7bcircuit=" ++ Text.quoted circuit ++ "\x7d:"

/-- The lines of a log that show at a verbosity. A record stands in the span entered last. -/
def Report.lines (verbosity : Nat) (span : String) : List Report → List String
  | [] => []
  | .entered circuit :: rest => lines verbosity (spanMark circuit) rest
  | .event e :: rest => (if e.level.verbosity ≤ verbosity then [e.line span] else []) ++ lines verbosity span rest

end GateGrid
