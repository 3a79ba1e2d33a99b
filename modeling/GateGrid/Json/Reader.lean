import GateGrid.Json.Fault

/-!
# Reading a JSON text from left to right

A `Reader` takes what it reads off the front of the text and stops at the first fault. `Reader.iterate` is the only
loop: each round takes at least one character, so the text itself counts the rounds.

`Dialect` holds the few rules in which values that are used and values that are passed over differ.
-/

namespace GateGrid.Json

/-- Takes a value off the front of a text. -/
abbrev Reader := StateT (List Char) (Except Fault)

/-- Rules that depend on whether the value is used. -/
structure Dialect where
  /-- Pairs of surrogate escapes are joined, and one alone is a fault. -/
  joinsSurrogates : Bool
  /-- The text ends inside a numeral. -/
  numeralCutOff : Fault
  /-- `]` stands behind a comma. -/
  commaBeforeListEnd : Fault
  /-- `}` stands behind a comma. -/
  commaBeforeObjectEnd : Fault
  /-- The text ends behind a comma of an object. -/
  objectCutOff : Fault

/-- The rules for values that are used. -/
def Dialect.used : Dialect where
  joinsSurrogates := true
  numeralCutOff := .endOfText .value
  commaBeforeListEnd := .trailingComma
  commaBeforeObjectEnd := .trailingComma
  objectCutOff := .endOfText .value

/-- The rules for values that are passed over. -/
def Dialect.passedOver : Dialect where
  joinsSurrogates := false
  numeralCutOff := .malformedNumber
  commaBeforeListEnd := .notAValue
  commaBeforeObjectEnd := .keyNotText
  objectCutOff := .endOfText .object

/-- JSON's white space: space, tab, line feed and carriage return. -/
def isBlank (c : Char) : Bool :=
  c == ' ' || c == '\t' || c == '\n' || c == '\r'

namespace Reader

/-- The next character, left where it is. -/
def peek : Reader (Option Char) := do
  return (← get).head?

/-- The next character, taken. -/
def next : Reader (Option Char) := do
  match ← get with
  | [] => return none
  | c :: rest =>
    set rest
    return some c

/-- Takes one character. -/
def skip : Reader Unit :=
  modify List.tail

/-- The next character that is not blank, left where it is. -/
def peekSolid : Reader (Option Char) := do
  modify (·.dropWhile isBlank)
  peek

/-- The longest run of characters that satisfy `p`. -/
def takeWhile (p : Char → Bool) : Reader (List Char) := do
  let text ← get
  set (text.dropWhile p)
  return text.takeWhile p

/-- At most one round of `step` for each item of `clock`. A round gives a new state or the result. -/
def rounds {σ α : Type} (step : σ → Reader (σ ⊕ α)) : (clock : List Char) → σ → Reader α
  | [], _ => throw (.endOfText .value)
  | _ :: clock, state => fun text =>
    match step state text with
    | .error fault => .error fault
    | .ok (.inl state, rest) => rounds step clock state rest
    | .ok (.inr result, rest) => .ok (result, rest)

/-- Repeats a step that takes at least one character whenever it goes on, until it gives a result. -/
def iterate {σ α : Type} (step : σ → Reader (σ ⊕ α)) (state : σ) : Reader α := fun text =>
  rounds step (' ' :: text) state text

/-- The whole text is one value, with nothing but blanks around it. -/
def document {α : Type} (read : Reader α) (text : String) : Except Fault α := do
  let (value, rest) ← read text.toList
  if (rest.dropWhile isBlank).isEmpty then return value else throw .trailingText

end Reader

end GateGrid.Json
