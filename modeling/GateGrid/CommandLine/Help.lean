import GateGrid.CommandLine.Grammar
import GateGrid.Text.Plain

/-!
# Help and usage messages

The help of a program and of its commands, laid out in two columns, and the wording of usage errors.
-/

namespace GateGrid.CommandLine

/-- The text with spaces behind it up to a width. -/
def padRight (width : Nat) (text : String) : String :=
  text ++ String.ofList (List.replicate (width - text.length) ' ')

/-- Lines of two columns, the second of which starts two spaces behind the widest entry of the first. -/
def columns (rows : List (String × String)) : List String :=
  let width := (rows.map fun row => row.1.length).foldl max 0
  rows.map fun row => "  " ++ padRight width row.1 ++ "  " ++ row.2

/-- The names of an option as they show in the help. -/
def CommandOption.names (o : CommandOption) : String :=
  match o.short with
  | some c => s!"-{c}, " ++ o.display
  | none => "    " ++ o.display

def optionLines (options : List CommandOption) : List String :=
  "Options:" :: columns (options.map fun o => (o.names, o.about))

/-- Lines of a text, each ended. -/
def unlines (lines : List String) : String :=
  String.join (lines.map (· ++ "\n"))

/-- The line of the help command among the commands. -/
def helpAbout : String := "Print this message or the help of the given subcommand(s)"

def Command.help (program : String) (c : Command) : List String :=
  let required := (c.options.filter (·.required)).map fun o => " " ++ o.display
  [c.about, "", s!"Usage: {program} {c.name} [OPTIONS]" ++ String.join required, ""] ++ optionLines c.options

namespace Program

def mainHelp (p : Program) : List String :=
  [p.about, "", s!"Usage: {p.name} [OPTIONS] <COMMAND>", "", "Commands:"] ++
    columns ((p.commands.map fun c => (c.name, c.about)) ++ [(helpName, helpAbout)]) ++ [""] ++ optionLines p.options

/-- The help of the help command. -/
def helpHelp (p : Program) : List String :=
  [helpAbout, "", s!"Usage: {p.name} {helpName} [COMMAND]...", "", "Arguments:"] ++
    columns [("[COMMAND]...", "Print help for the subcommand(s)")]

/-- The help of the program or of one of its commands. -/
def help (p : Program) : Option String → List String
  | none => p.mainHelp
  | some name =>
    match p.command? name with
    | some c => c.help p.name
    | none => p.helpHelp

/-- What is shown for a command line that is refused; without any arguments that is the help. Arguments show without
terminal sequences. -/
def refusal (p : Program) : UsageError → List String
  | .noArguments => p.mainHelp
  | .noCommand program => [s!"error: '{program}' requires a subcommand but one was not provided"]
  | .unknownCommand argument => [s!"error: unrecognized subcommand '{Text.plain argument}'"]
  | .unexpectedArgument argument => [s!"error: unexpected argument '{Text.plain argument}' found"]
  | .unexpectedValue value o =>
    [s!"error: unexpected value '{Text.plain value}' for '{o.display}' found; no more were expected"]
  | .missingValue o => [s!"error: a value is required for '{o.display}' but none was supplied"]
  | .repeatedOption o => [s!"error: the argument '{o.display}' cannot be used multiple times"]
  | .missingOptions => ["error: the following required arguments were not provided:"]

end Program

end GateGrid.CommandLine
