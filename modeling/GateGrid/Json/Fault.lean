import GateGrid.Json.Number
import GateGrid.Text.Quoted

/-!
# What can be wrong with a JSON text

`Fault` names the causes; `Fault.message` words them.
-/

namespace GateGrid.Json

/-- What was being read. -/
inductive Context where
  | value
  | list
  | object
  | text

/-- What stood where something else was expected. -/
inductive Found where
  | null
  | boolean (value : Bool)
  | number (value : Number)
  | text (value : String)
  | list
  | object
  | bareChoice

/-- The first problem of a JSON text. -/
inductive Fault where
  | endOfText (within : Context)
  | notAValue
  | notAWord
  | noColon
  | noListSeparator
  | noObjectSeparator
  | keyNotText
  | trailingComma
  | trailingText
  | malformedNumber
  | numberOutOfRange
  | unknownEscape
  | unfinishedSurrogatePair
  | loneSurrogate
  | controlCharacter
  | nestedTooDeeply
  | missingField (name : String)
  | repeatedField (name : String)
  | unknownChoice (name : String) (choices : List String)
  | wrongType (found : Found) (expected : String)
  | wrongInteger (found : Int) (expected : String)
  /-- A list stands for a record but ends after `length` fields. -/
  | tooFewFields (length : Nat) (record : String) (fields : Nat)
  | noVariant (type : String)

def Context.message : Context → String
  | .value => "a value"
  | .list => "a list"
  | .object => "an object"
  | .text => "a string"

def Found.message : Found → String
  | .null => "null"
  | .boolean b => s!"boolean `{b}`"
  | .number (.integer i) => s!"integer `{i}`"
  | .number (.real x) => s!"floating point `{numberLayout.render x}`"
  | .text s => s!"string {Text.quoted s}"
  | .list => "sequence"
  | .object => "map"
  | .bareChoice => "unit variant"

/-- The choices of a field in words: all of them, each between backquotes. -/
def choicesMessage (choices : List String) : String :=
  match choices.map fun c => s!"`{c}`" with
  | [a, b] => s!"{a} or {b}"
  | names => "one of " ++ ", ".intercalate names

def Fault.message : Fault → String
  | .endOfText within => s!"EOF while parsing {within.message}"
  | .notAValue => "expected value"
  | .notAWord => "expected ident"
  | .noColon => "expected `:`"
  | .noListSeparator => "expected `,` or `]`"
  | .noObjectSeparator => "expected `,` or `\x7d`"
  | .keyNotText => "key must be a string"
  | .trailingComma => "trailing comma"
  | .trailingText => "trailing characters"
  | .malformedNumber => "invalid number"
  | .numberOutOfRange => "number out of range"
  | .unknownEscape => "invalid escape"
  | .unfinishedSurrogatePair => "unexpected end of hex escape"
  | .loneSurrogate => "lone leading surrogate in hex escape"
  | .controlCharacter => "control character (\\u0000-\\u001F) found while parsing a string"
  | .nestedTooDeeply => "recursion limit exceeded"
  | .missingField name => s!"missing field `{name}`"
  | .repeatedField name => s!"duplicate field `{name}`"
  | .unknownChoice name choices => s!"unknown variant `{name}`, expected {choicesMessage choices}"
  | .wrongType found expected => s!"invalid type: {found.message}, expected {expected}"
  | .wrongInteger found expected => s!"invalid value: integer `{found}`, expected {expected}"
  | .tooFewFields length record 1 => s!"invalid length {length}, expected {record} with 1 element"
  | .tooFewFields length record fields => s!"invalid length {length}, expected {record} with {fields} elements"
  | .noVariant type => s!"data did not match any variant of untagged enum {type}"

end GateGrid.Json
