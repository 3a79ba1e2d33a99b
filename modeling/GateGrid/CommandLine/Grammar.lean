/-!
# Commands and their options

* `CommandOption`: an option by its names, with or without a value.
* `Command`, `Program`: what can be given on a command line.
* `Program.read`: reads the arguments from left to right and stops at the first one that does not fit, or where help
  or the version is asked for.
-/

namespace GateGrid.CommandLine

/-- What an option does. -/
inductive OptionKind where
  /-- Given at most once. -/
  | switch
  /-- Given any number of times. -/
  | counter
  /-- Given at most once, with a value. -/
  | value (placeholder : String)
  | help
  | version
deriving DecidableEq

/-- An option with its names and its line in the help. -/
structure CommandOption where
  short : Option Char := none
  long : String
  kind : OptionKind
  required : Bool := false
  about : String

/-- How an option shows in messages. -/
def CommandOption.display (o : CommandOption) : String :=
  match o.kind with
  | .value placeholder => s!"--{o.long} <{placeholder}>"
  | .counter => s!"--{o.long}..."
  | _ => s!"--{o.long}"

/-- A command with its options, in the order of the help. -/
structure Command where
  name : String
  about : String
  options : List CommandOption

/-- A program: one of its commands is given after the options of the program itself. -/
structure Program where
  name : String
  version : String
  about : String
  options : List CommandOption
  commands : List Command

/-- The command that shows the help of the others. -/
def helpName : String := "help"

/-- Why a command line is refused. -/
inductive UsageError where
  | noArguments
  | noCommand (program : String)
  | unknownCommand (argument : String)
  | unexpectedArgument (argument : String)
  | unexpectedValue (value : String) (option : CommandOption)
  | missingValue (option : CommandOption)
  | repeatedOption (option : CommandOption)
  | missingOptions

/-- Where the reading of a command line ends early. -/
inductive Stop where
  /-- The help of the program, or of one of its commands. -/
  | help (command : Option String)
  | version
  | refused (error : UsageError)

/-! ### Options that have been given -/

/-- The options of one command that have been read. -/
structure Given where
  /-- An option by its long name, with its value if it takes one. -/
  options : List (String × String) := []
  /-- The last option, if its value may still come or has not been checked yet. -/
  pending : Option (CommandOption × Option String) := none

namespace Given

def count (g : Given) (long : String) : Nat :=
  (g.options.filter (·.1 == long)).length

def isSet (g : Given) (long : String) : Bool :=
  g.options.any (·.1 == long)

def value? (g : Given) (long : String) : Option String :=
  (g.options.find? (·.1 == long)).map (·.2)

/-- Records an option that may be given once. -/
def addOnce (g : Given) (o : CommandOption) (value : String) : Except Stop Given :=
  if g.isSet o.long then .error (.refused (.repeatedOption o))
  else .ok { g with options := g.options ++ [(o.long, value)] }

/-- Checks the pending option. -/
def settle (g : Given) : Except Stop Given :=
  match g.pending with
  | none => .ok g
  | some (o, none) => .error (.refused (.missingValue o))
  | some (o, some value) => { g with pending := none }.addOnce o value

/-- Records an option without a value. -/
def give (g : Given) (command : Option String) (o : CommandOption) : Except Stop Given := do
  let g ← g.settle
  match o.kind with
  | .counter => return { g with options := g.options ++ [(o.long, "")] }
  | .help => throw (.help command)
  | .version => throw .version
  | _ => g.addOnce o ""

/-- Records an option with the value attached to it. -/
def giveValue (g : Given) (o : CommandOption) (value : String) : Except Stop Given := do
  (← g.settle).addOnce o value

/-- Records an option whose value is the next argument. -/
def await (g : Given) (o : CommandOption) : Except Stop Given := do
  return { (← g.settle) with pending := some (o, none) }

/-- The pending option takes its value. -/
def takeValue (g : Given) (value : String) : Given :=
  match g.pending with
  | some (o, none) => { g with pending := some (o, some value) }
  | _ => g

/-- An option waits for its value. -/
def isWaiting (g : Given) : Bool :=
  match g.pending with
  | some (_, none) => true
  | _ => false

end Given

/-! ### Arguments -/

/-- The kind of an argument, told by its first characters. -/
inductive Argument where
  | plain
  /-- `--`: what follows are no options. -/
  | separator
  | long (name : String) (value : Option String)
  | short (letters : List Char)

def Argument.ofString (argument : String) : Argument :=
  match argument.toList with
  | ['-', '-'] => .separator
  | '-' :: '-' :: rest =>
    .long (String.ofList (rest.takeWhile (· != '=')))
      (match rest.dropWhile (· != '=') with
        | [] => none
        | _ :: value => some (String.ofList value))
  | '-' :: c :: rest => .short (c :: rest)
  | _ => .plain

/-- Reads a long option. -/
def readLong (command : Option String) (options : List CommandOption) (g : Given) (name : String)
    (value : Option String) : Except Stop Given :=
  match options.find? (·.long == name) with
  | none => .error (.refused (.unexpectedArgument s!"--{name}"))
  | some o =>
    match o.kind, value with
    | .value _, some value => g.giveValue o value
    | .value _, none => g.await o
    | _, some value => .error (.refused (.unexpectedValue value o))
    | _, none => g.give command o

/-- Reads short options that share one argument. One that takes a value has the rest of the argument for it. -/
def readShort (command : Option String) (options : List CommandOption) (g : Given) :
    List Char → Except Stop Given
  | [] => .ok g
  | c :: rest =>
    match options.find? (·.short == some c) with
    | none => .error (.refused (.unexpectedArgument s!"-{c}"))
    | some o =>
      match o.kind, rest with
      | .value _, [] => g.await o
      | .value _, '=' :: value => g.giveValue o (String.ofList value)
      | .value _, value => g.giveValue o (String.ofList value)
      | _, rest => do readShort command options (← g.give command o) rest

/-- Reads the options of a command; any other argument is refused. -/
def readOptions (command : Command) (g : Given) (separated : Bool) : List String → Except Stop Given
  | [] => g.settle
  | argument :: rest =>
    let refuse := .error (.refused (.unexpectedArgument argument))
    if separated then refuse
    else match Argument.ofString argument with
      | .separator => readOptions command g true rest
      | .long name value => do
        readOptions command (← readLong command.name command.options g name value) false rest
      | .short letters => do
        readOptions command (← readShort command.name command.options g letters) false rest
      | .plain => if g.isWaiting then readOptions command (g.takeValue argument) false rest else refuse

/-- The options of a command; those that are required must be there. -/
def Command.read (command : Command) (arguments : List String) : Except Stop Given := do
  let g ← readOptions command {} false arguments
  if command.options.all fun o => !o.required || g.isSet o.long then return g
  else throw (.refused .missingOptions)

/-! ### Programs -/

namespace Program

def command? (p : Program) (name : String) : Option Command :=
  p.commands.find? (·.name == name)

/-- The help that is asked for by name. -/
def readHelp (p : Program) : List String → Stop
  | [] => .help none
  | name :: rest =>
    if (p.command? name).isNone ∧ name ≠ helpName then .refused (.unknownCommand name)
    else match rest with
      | [] => .help (some name)
      | extra :: _ => .refused (.unknownCommand extra)

/-- Reads the options of the program up to the name of a command, and then those of the command. -/
def readFrom (p : Program) (g : Given) (separated : Bool) : List String → Except Stop (Given × Command × Given)
  | [] =>
    .error (.refused (if g.options.isEmpty then .noArguments else .noCommand p.name))
  | argument :: rest =>
    if separated then
      .error (.refused (if (p.command? argument).isSome ∨ argument = helpName then .unexpectedArgument argument
        else .unknownCommand argument))
    else if argument = helpName then .error (p.readHelp rest)
    else match p.command? argument with
      | some command => (command.read rest).map fun given => (g, command, given)
      | none =>
        match Argument.ofString argument with
        | .separator => p.readFrom g true rest
        | .long name value => do p.readFrom (← readLong none p.options g name value) false rest
        | .short letters => do p.readFrom (← readShort none p.options g letters) false rest
        | .plain => .error (.refused (.unknownCommand argument))

/-- The options of the program, its command and the options of the command. -/
def read (p : Program) (arguments : List String) : Except Stop (Given × Command × Given) :=
  p.readFrom {} false arguments

end Program

end GateGrid.CommandLine
