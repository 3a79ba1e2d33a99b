import GateGrid.Json.Token

/-!
# Lists and objects

How items and members are separated and how a list or an object ends. What an item or a member is, is left to the
caller: `readList` and `readMembers` serve trees, records and values that are passed over.
-/

namespace GateGrid.Json

/-! ### Lists -/

/-- Whether another item follows; the closing bracket is left where it is. -/
def anotherItem (dialect : Dialect) (first : Bool) : Reader Bool := do
  match ← Reader.peekSolid with
  | none => throw (.endOfText .list)
  | some ']' => return false
  | some c =>
    if first then return true
    else if c = ',' then
      Reader.skip
      match ← Reader.peekSolid with
      | none => throw (.endOfText .value)
      | some ']' => throw dialect.commaBeforeListEnd
      | some _ => return true
    else throw .noListSeparator

/-- The bracket that ends a list of which no further item is wanted. -/
def closeList : Reader Unit := do
  match ← Reader.peekSolid with
  | none => throw (.endOfText .list)
  | some ']' => Reader.skip
  | some ',' =>
    Reader.skip
    if (← Reader.peekSolid) = some ']' then throw .trailingComma else throw .trailingText
  | some _ => throw .trailingText

/-- One item, or the end of the list. The items before it stand last first. -/
def listStep {α : Type} (dialect : Dialect) (item : Reader α) (before : List α) : Reader (List α ⊕ List α) := do
  if ← anotherItem dialect before.isEmpty then return .inl ((← item) :: before)
  else
    closeList
    return .inr before.reverse

/-- The items of a list, behind its opening bracket. -/
def readList {α : Type} (dialect : Dialect) (item : Reader α) : Reader (List α) :=
  Reader.iterate (listStep dialect item) []

/-! ### Objects -/

/-- Whether another member follows; its quote or the closing bracket is left where it is. -/
def anotherMember (dialect : Dialect) (first : Bool) : Reader Bool := do
  match ← Reader.peekSolid with
  | none => throw (.endOfText .object)
  | some '\x7d' => return false
  | some c =>
    if first then
      if c = '"' then return true else throw .keyNotText
    else if c = ',' then
      Reader.skip
      match ← Reader.peekSolid with
      | none => throw dialect.objectCutOff
      | some '\x7d' => throw dialect.commaBeforeObjectEnd
      | some c => if c = '"' then return true else throw .keyNotText
    else throw .noObjectSeparator

/-- The colon behind a key. -/
def readColon : Reader Unit := do
  match ← Reader.peekSolid with
  | none => throw (.endOfText .object)
  | some c => if c = ':' then Reader.skip else throw .noColon

/-- One member, or the end of the object. The flag says that no member came before. -/
def memberStep {σ : Type} (dialect : Dialect) (member : σ → String → Reader σ) (state : Bool × σ) :
    Reader ((Bool × σ) ⊕ σ) := do
  if ← anotherMember dialect state.1 then
    Reader.skip
    let key ← readText dialect
    return .inl (false, ← member state.2 key)
  else
    Reader.skip
    return .inr state.2

/-- The members of an object, behind its opening bracket. `member` takes over behind each key and reads the colon. -/
def readMembers {σ : Type} (dialect : Dialect) (member : σ → String → Reader σ) (state : σ) : Reader σ :=
  Reader.iterate (memberStep dialect member) (true, state)

/-- The members of an object as pairs in their order. -/
def readObject {α : Type} (dialect : Dialect) (value : Reader α) : Reader (List (String × α)) := do
  let pairs ← readMembers dialect (fun before key => do
    readColon
    return (key, ← value) :: before) []
  return pairs.reverse

end GateGrid.Json
