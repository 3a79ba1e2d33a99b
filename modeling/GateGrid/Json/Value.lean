import GateGrid.Json.Container

/-!
# JSON values

`Value` is a JSON tree; an object keeps its members in their order, repeated keys included. `Value.read` reads one,
`passOver` checks the syntax of one, and the functions at the end say what a value is good for.
-/

namespace GateGrid.Json

/-- A JSON tree. -/
inductive Value where
  | null
  | boolean (value : Bool)
  | number (value : Number)
  | text (value : String)
  | list (items : List Value)
  | object (members : List (String × Value))

/-- How many lists and objects may be open at once where values are used. -/
def nestingLimit : Nat := 127

namespace Value

/-- The value that begins with a token. -/
def ofToken (list object : Reader Value) : Token → Reader Value
  | .null => return .null
  | .boolean b => return .boolean b
  | .numeral m => return .number (← m.number)
  | .text s => return .text s
  | .openList => list
  | .openObject => object

/-- A value inside which at most `room` lists and objects are open at once. -/
def read : (room : Nat) → Reader Value
  | 0 => do ofToken (throw .nestedTooDeeply) (throw .nestedTooDeeply) (← Token.read .used)
  | room + 1 => do
    ofToken (return .list (← readList .used (read room))) (return .object (← readObject .used (read room)))
      (← Token.read .used)

end Value

/-- Checks the syntax of a value inside which at most one list or object is open at once for each item of `room`. -/
def passOverWithin : (room : List Char) → Reader Unit
  | [] => throw (.endOfText .value)
  | _ :: room => do
    match ← Token.read .passedOver with
    | .openList => discard (readList .passedOver (passOverWithin room))
    | .openObject => discard (readObject .passedOver (passOverWithin room))
    | _ => return

/-- Checks the syntax of a value of any depth: a text has no more open brackets than characters. -/
def passOver : Reader Unit := fun text =>
  passOverWithin text text

/-! ### What a number or a value is good for -/

/-- An integer of 32 bits; a double is none, whatever its value. -/
def Number.toNatural32? : Number → Option UInt32
  | .integer i => if 0 ≤ i ∧ i < UInt32.size then some (UInt32.ofNat i.toNat) else none
  | .real _ => none

namespace Value

def toNatural32? : Value → Option UInt32
  | .number n => n.toNatural32?
  | _ => none

def toReal? : Value → Option Float
  | .number n => some n.toFloat
  | _ => none

def toText? : Value → Option String
  | .text s => some s
  | _ => none

/-- A text, or `null` for none. -/
def toTextOrNull? : Value → Option (Option String)
  | .null => some none
  | v => v.toText?.map some

/-- A list each item of which is good for an `α`. -/
def toList? {α : Type} (item : Value → Option α) : Value → Option (List α)
  | .list items => items.mapM item
  | _ => none

end Value

end GateGrid.Json
