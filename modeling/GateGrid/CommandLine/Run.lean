import GateGrid.Circuit.File
import GateGrid.CommandLine.Interface
import GateGrid.CommandLine.LogLine
import GateGrid.CommandLine.Style
import GateGrid.CommandLine.World
import GateGrid.Script.Compact

/-!
# Running a command line

`run` is the whole program as a task, which gives the exit status. Only `encode` touches files. It reads its input once,
and writes its output once, after everything else has succeeded.
-/

namespace GateGrid.CommandLine

/-! ### Encoding a file -/

/-- The extension of a file name: what follows its last dot, unless that is the first character. -/
def extension? (path : String) : Option String :=
  match ((Path.names path).filter (· != ".")).getLast? with
  | none => none
  | some ".." => none
  | some name =>
    match name.toList.reverse.span (· != '.') with
    | (_, []) => none
    | (_, [_]) => none
    | (suffix, _) => some (String.ofList suffix.reverse)

/-- Extensions of circuits in another language. -/
def isForeign (path : String) : Bool :=
  match extension? path with
  | some extension => ["qasm", "qasm3"].contains extension.toLower
  | none => false

/-- The text of a file. -/
def textOf (content : Except FileFault ByteArray) : Except FileFault String := do
  match String.fromUTF8? (← content) with
  | some text => return text
  | none => throw .notText

/-- The circuit of a file, or what to say instead, from the general to the particular. -/
def loadCircuit (path : String) : Access → Except (List String) Circuit
  | .missing => .error [s!"File not found: {path}"]
  | .present content =>
    if isForeign path then .error [s!"OpenQASM input is not supported, convert {path} to a JSON circuit"]
    else match textOf content with
      | .error fault => .error [s!"Failed to read file: {path}", fault.message]
      | .ok text =>
        match Circuit.ofJson text with
        | .error e => .error (s!"Failed to load circuit: {path}" :: e.message :: e.cause)
        | .ok c => .ok c

/-- The end of a run that failed: the reasons on one line. -/
def fail (color : Bool) (reasons : List String) : Task UInt32 :=
  .print .stderr (styled color [.red, .bold] "Error:" ++ " " ++ ": ".intercalate reasons ++ "\n") (.done 1)

/-- The end of a run that succeeded. -/
def succeed (lines : List String) : Task UInt32 :=
  .print .stdout (unlines lines) (.done 0)

/-- What is said about a file that has been written. -/
def report (color : Bool) (request : EncodeRequest) (c : Circuit) (output : String) : List String :=
  let form := if request.compact then "compact string" else "file string"
  [styled color [.green, .bold] "✓" ++ " Encoded " ++ styled color [.green] request.input ++
      s!" ({c.numQubits.toNat} qubits) as {form}",
    "  Output: " ++ styled color [.green] output]

/-- The script of a circuit in the form that is asked for. -/
def EncodeRequest.text (request : EncodeRequest) (c : Circuit) : Except EncodeError String :=
  if request.compact then c.compactString request.policy else c.fileString request.policy

/-- The log of the encoding of a file that has been loaded. -/
def logLines (verbosity : Nat) (request : EncodeRequest) (c : Circuit) : List String :=
  (if Level.info.verbosity ≤ verbosity then [loadedLine request.input c] else []) ++
    Report.lines verbosity "" (c.encode request.policy).log

/-- Encodes a circuit and writes the script. -/
def encodeCircuit (color : Bool) (request : EncodeRequest) (c : Circuit) : Task UInt32 :=
  match request.text c, request.output with
  | .error e, _ => fail color [s!"Failed to encode {request.input}", e.message]
  | .ok text, none => succeed [text]
  | .ok text, some output => .write output text fun
    | some fault => fail color [s!"Failed to write file: {output}", fault.message]
    | none => succeed (report color request c output)

/-- Encodes a file. -/
def encode (color : Bool) (verbosity : Nat) (request : EncodeRequest) : Task UInt32 :=
  .read request.input fun access =>
    match loadCircuit request.input access with
    | .error reasons => fail color reasons
    | .ok c => .print .stderr (unlines (logLines verbosity request c)) (encodeCircuit color request c)

/-! ### Tables -/

/-- The gate table. -/
def gatesText (color : Bool) : List String :=
  let row (name codes header : String) := "  " ++ name ++ " " ++ codes ++ " " ++ header
  [styled color [.bold] "Supported gates", "",
    row (padRight 8 "Gate") (padRight 8 "Codes") (padRight 6 "Header")] ++
    Symbol.all.map fun symbol =>
      row (styled color [.cyan] (padRight 8 symbol.name)) (padRight 8 (String.ofList symbol.codes))
        (styled color [.dim] (padRight 6 (if symbol.hasHeader then "\x7bU\x7d" else "")))

/-- The version and the parts of the program. -/
def versionText (color : Bool) : List String :=
  [styled color [.cyan, .bold] interface.name ++ " " ++ styled color [.yellow] s!"v{interface.version}" ++
      " - quicscript encoder for quantum circuits",
    "", "Components:",
    "  quic-ir      Circuit representation and JSON loading",
    "  quic-script  Quicscript file and compact string encoder",
    "  quic-cli     Command-line interface",
    "", "License:    " ++ styled color [.dim] "Apache-2.0"]

/-! ### The program -/

/-- The end of a run where the reading of the command line ends early. -/
def stop : Stop → Task UInt32
  | .help command => succeed (interface.help command)
  | .version => succeed [s!"{interface.name} {interface.version}"]
  | .refused e => .print .stderr (unlines (interface.refusal e)) (.done 2)

/-- Runs a command line and gives the exit status. -/
def run (color : Bool) (arguments : List String) : Task UInt32 :=
  match Invocation.read arguments with
  | .error reason => stop reason
  | .ok invocation =>
    match invocation.request with
    | .encode request => encode color invocation.verbosity request
    | .gates => succeed (gatesText color)
    | .version => succeed (versionText color)

end GateGrid.CommandLine
