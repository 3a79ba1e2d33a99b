import GateGrid.CommandLine.Help
import GateGrid.Script.Policy

/-!
# The commands of the program

`interface` describes the command line; `Invocation.read` says what a command line asks for.
-/

namespace GateGrid.CommandLine

def verboseOption : CommandOption where
  short := some 'v'
  long := "verbose"
  kind := .counter
  about := "Increase verbosity (-v, -vv, -vvv)"

def helpOption : CommandOption where
  short := some 'h'
  long := "help"
  kind := .help
  about := "Print help"

def versionOption : CommandOption where
  short := some 'V'
  long := "version"
  kind := .version
  about := "Print version"

def inputOption : CommandOption where
  short := some 'i'
  long := "input"
  kind := .value "INPUT"
  required := true
  about := "Input file (JSON circuit)"

def outputOption : CommandOption where
  short := some 'o'
  long := "output"
  kind := .value "OUTPUT"
  about := "Output file (defaults to stdout)"

def compactOption : CommandOption where
  long := "compact"
  kind := .switch
  about := "Emit the compact string instead of the file string"

def lenientOption : CommandOption where
  long := "lenient-params"
  kind := .switch
  about := "Pass malformed parameter lists through instead of rejecting them"

def encodeCommand : Command where
  name := "encode"
  about := "Encode a circuit as quicscript"
  options := [inputOption, verboseOption, outputOption, compactOption, lenientOption, helpOption]

def gatesCommand : Command where
  name := "gates"
  about := "List the supported gates and their slot codes"
  options := [verboseOption, helpOption]

def versionCommand : Command where
  name := "version"
  about := "Show version information"
  options := [verboseOption, helpOption]

/-- The program and its commands. -/
def interface : Program where
  name := "quic"
  version := "0.1.0"
  about := "Command-line quicscript encoder"
  options := [verboseOption, helpOption, versionOption]
  commands := [encodeCommand, gatesCommand, versionCommand]

/-- What is to be encoded, and how. -/
structure EncodeRequest where
  input : String
  output : Option String
  compact : Bool
  policy : Policy

inductive Request where
  | encode (request : EncodeRequest)
  | gates
  | version

/-- What a command line asks for. -/
structure Invocation where
  verbosity : Nat
  request : Request

namespace Invocation

def encodeRequest (g : Given) : EncodeRequest where
  input := (g.value? inputOption.long).getD ""
  output := g.value? outputOption.long
  compact := g.isSet compactOption.long
  policy := if g.isSet lenientOption.long then .lenient else .strict

def requestOf (command : Command) (g : Given) : Request :=
  if command.name = encodeCommand.name then .encode (encodeRequest g)
  else if command.name = gatesCommand.name then .gates
  else .version

/-- Reads a command line. Verbosity that is given behind the command counts alone. -/
def read (arguments : List String) : Except Stop Invocation := do
  let (before, command, behind) ← interface.read arguments
  let verbosity := if behind.isSet verboseOption.long then behind else before
  return ⟨verbosity.count verboseOption.long, requestOf command behind⟩

end Invocation

end GateGrid.CommandLine
