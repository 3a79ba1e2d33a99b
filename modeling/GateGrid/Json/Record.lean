import GateGrid.Json.Value

/-!
# Values of a known type

Readers for numbers, texts, records and choices. They look at each part of the text once and report the first thing
that does not fit.

A record is an object with its fields as members, or a list of its fields in their order; both forms fill a *draft*,
in which any field may still be missing. A choice is a name alone, or an object whose one key is the name.
-/

namespace GateGrid.Json

/-! ### Scalars and lists -/

/-- An integer from `0` to `2 ^ 32 - 1`. -/
def readNatural32 : Reader UInt32 := do
  match ← Token.read .used with
  | .numeral m =>
    let number ← m.number
    match number, number.toNatural32? with
    | _, some n => return n
    | .integer i, none => throw (.wrongInteger i "u32")
    | .real x, none => throw (.wrongType (.number (.real x)) "u32")
  | token => token.wrongType "u32"

/-- Any number, as a double. -/
def readReal : Reader Float := do
  match ← Token.read .used with
  | .numeral m => return (← m.number).toFloat
  | token => token.wrongType "f64"

/-- A text. -/
def readString : Reader String := do
  match ← Token.read .used with
  | .text s => return s
  | token => token.wrongType "a string"

/-- A text, or `null` for none. -/
def readStringOrNull : Reader (Option String) := do
  match ← Token.read .used with
  | .null => return none
  | .text s => return some s
  | token => token.wrongType "a string"

/-- `null`. -/
def readNull : Reader Unit := do
  match ← Token.read .used with
  | .null => return
  | token => token.wrongType "unit"

/-- A list. -/
def readListOf {α : Type} (item : Reader α) : Reader (List α) := do
  match ← Token.read .used with
  | .openList => readList .used item
  | token => token.wrongType "a sequence"

/-! ### Records -/

/-- A field of a record that is read into drafts `σ`. -/
structure Field (σ : Type) where
  name : String
  isSet : σ → Bool
  read : σ → Reader σ

/-- A record type `α`: its name in faults, its fields in their order, and the drafts `σ` of its values. -/
structure Record (σ α : Type) where
  name : String
  fields : List (Field σ)
  /-- The draft with no field set. -/
  blank : σ
  /-- The record, or the name of the first field that is missing. -/
  finish : σ → Except String α

namespace Record

variable {σ α : Type} (record : Record σ α)

/-- Reads the member with this key: a field at most once, and any other key to no effect. -/
def readMember (draft : σ) (key : String) : Reader σ := do
  match record.fields.find? (·.name == key) with
  | none =>
    readColon
    passOver
    return draft
  | some field =>
    if field.isSet draft then throw (.repeatedField key)
    readColon
    field.read draft

/-- Reads fields in their order until the list ends. -/
def readInOrder : List (Field σ) → (first : Bool) → σ → Reader σ
  | [], _, draft => return draft
  | field :: rest, first, draft => do
    if ← anotherItem .used first then readInOrder rest false (← field.read draft) else return draft

/-- A record in either of its forms. -/
def read : Reader α := do
  match ← Token.read .used with
  | .openObject =>
    let draft ← readMembers .used record.readMember record.blank
    match record.finish draft with
    | .ok value => return value
    | .error name => throw (.missingField name)
  | .openList =>
    let draft ← readInOrder record.fields true record.blank
    match record.finish draft with
    | .ok value =>
      closeList
      return value
    | .error name =>
      throw (.tooFewFields (record.fields.findIdx (·.name == name)) record.name record.fields.length)
  | token => token.wrongType record.name

end Record

/-- The value of a field that must be set. -/
def required {α : Type} (name : String) : Option α → Except String α
  | some value => .ok value
  | none => .error name

/-! ### Choices -/

/-- One of several named forms of a value: the name alone, or the name with a content. -/
inductive Choice (α : Type) where
  | bare (name : String) (value : α)
  | holding (name : String) (content : Reader α)

namespace Choice

variable {α : Type}

def name : Choice α → String
  | .bare name _ => name
  | .holding name _ => name

/-- The choice of this name. -/
def named (choices : List (Choice α)) (name : String) : Reader (Choice α) :=
  match choices.find? (·.name == name) with
  | some choice => return choice
  | none => throw (.unknownChoice name (choices.map Choice.name))

/-- A choice of which the name stands alone. -/
def alone : Choice α → Reader α
  | .bare _ value => return value
  | .holding _ _ => throw (.wrongType .bareChoice "newtype variant")

/-- The content behind the name; a bare choice has `null` there. -/
def readContent : Choice α → Reader α
  | .bare _ value => do
    readNull
    return value
  | .holding _ content => content

/-- The name that is the key of a choice. -/
def readName : Reader String := do
  match ← Reader.peekSolid with
  | none => throw (.endOfText .object)
  | some '"' => readString
  | some '\x7d' => throw .notAValue
  | some _ => throw .keyNotText

/-- One of the choices. -/
def read (choices : List (Choice α)) : Reader α := do
  match ← Reader.peekSolid with
  | none => throw (.endOfText .value)
  | some '"' => (← named choices (← readString)).alone
  | some '\x7b' =>
    Reader.skip
    let choice ← named choices (← readName)
    readColon
    let value ← choice.readContent
    match ← Reader.peekSolid with
    | none => throw (.endOfText .object)
    | some '\x7d' =>
      Reader.skip
      return value
    | some _ => throw .notAValue
  | some _ => throw .notAValue

end Choice

end GateGrid.Json
