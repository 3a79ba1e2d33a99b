import GateGrid.Json.Reader

/-!
# How the text of a value begins

A `Token` is a whole scalar, or the bracket that opens a list or an object. `Token.read` also serves values that are
passed over: it checks how a number is spelled and leaves its value alone.
-/

namespace GateGrid.Json

/-- A scalar or an opening bracket. -/
inductive Token where
  | null
  | boolean (value : Bool)
  | numeral (value : Numeral)
  | text (value : String)
  | openList
  | openObject

/-! ### Texts -/

def hexDigit? (c : Char) : Option Nat :=
  if '0' ≤ c ∧ c ≤ '9' then some (c.toNat - '0'.toNat)
  else if 'a' ≤ c ∧ c ≤ 'f' then some (c.toNat - 'a'.toNat + 10)
  else if 'A' ≤ c ∧ c ≤ 'F' then some (c.toNat - 'A'.toNat + 10)
  else none

/-- The 16-bit unit of a `\u` escape. The escape claims four bytes, whatever they are. -/
def readUnit : Reader Nat := do
  match ← get with
  | a :: b :: c :: d :: rest =>
    match hexDigit? a, hexDigit? b, hexDigit? c, hexDigit? d with
    | some a, some b, some c, some d =>
      set rest
      return ((a * 16 + b) * 16 + c) * 16 + d
    | _, _, _, _ => throw .unknownEscape
  | short =>
    if (String.ofList short).utf8ByteSize < 4 then throw (.endOfText .text) else throw .unknownEscape

def isHighSurrogate (unit : Nat) : Bool :=
  0xD800 ≤ unit && unit < 0xDC00

def isLowSurrogate (unit : Nat) : Bool :=
  0xDC00 ≤ unit && unit < 0xE000

/-- The character of a pair of surrogates. -/
def joinSurrogates (high low : Nat) : Char :=
  Char.ofNat (0x10000 + (high - 0xD800) * 0x400 + (low - 0xDC00))

/-- Takes the character that a pair of surrogates needs at this place. -/
def readPairMark (mark : Char) : Reader Unit := do
  match ← Reader.next with
  | none => throw (.endOfText .text)
  | some c => if c ≠ mark then throw .unfinishedSurrogatePair

/-- The character of a `\u` escape, or of two that form a pair. -/
def readCodePoint (dialect : Dialect) : Reader Char := do
  let unit ← readUnit
  if ¬ dialect.joinsSurrogates then return Char.ofNat unit
  else if isLowSurrogate unit then throw .loneSurrogate
  else if isHighSurrogate unit then
    readPairMark '\\'
    readPairMark 'u'
    let low ← readUnit
    if isLowSurrogate low then return joinSurrogates unit low else throw .loneSurrogate
  else return Char.ofNat unit

/-- The character behind a backslash stands for this one. -/
def shortEscape? : Char → Option Char
  | '"' => some '"'
  | '\\' => some '\\'
  | '/' => some '/'
  | 'b' => some '\x08'
  | 'f' => some '\x0c'
  | 'n' => some '\n'
  | 'r' => some '\r'
  | 't' => some '\t'
  | _ => none

/-- The rest of an escape, behind its backslash. -/
def readEscape (dialect : Dialect) : Reader Char := do
  match ← Reader.next with
  | none => throw (.endOfText .text)
  | some 'u' => readCodePoint dialect
  | some c =>
    match shortEscape? c with
    | some c => return c
    | none => throw .unknownEscape

/-- One character of a text, or its closing quote. The characters before it stand last first. -/
def textStep (dialect : Dialect) (before : List Char) : Reader (List Char ⊕ List Char) := do
  match ← Reader.next with
  | none => throw (.endOfText .text)
  | some '"' => return .inr before.reverse
  | some '\\' => return .inl ((← readEscape dialect) :: before)
  | some c => if c.toNat < 0x20 then throw .controlCharacter else return .inl (c :: before)

/-- The rest of a text, behind its opening quote. -/
def readText (dialect : Dialect) : Reader String := do
  return String.ofList (← Reader.iterate (textStep dialect) [])

/-! ### Numerals -/

/-- At least one decimal digit. -/
def readDigits (dialect : Dialect) : Reader (List Char) := do
  match ← Reader.takeWhile Char.isDigit with
  | [] => if (← Reader.peek).isNone then throw dialect.numeralCutOff else throw .malformedNumber
  | digits => return digits

/-- The digits before the point: a leading zero stands alone. -/
def readWhole (dialect : Dialect) : Reader (List Char) := do
  match ← readDigits dialect with
  | '0' :: _ :: _ => throw .malformedNumber
  | digits => return digits

/-- The digits behind a point, if there is one. -/
def readFraction (dialect : Dialect) : Reader (Option (List Char)) := do
  if (← Reader.peek) = some '.' then
    Reader.skip
    return some (← readDigits dialect)
  else return none

/-- The exponent, if there is one. -/
def readExponent (dialect : Dialect) : Reader (Option Exponent) := do
  match ← Reader.peek with
  | some 'e' | some 'E' =>
    Reader.skip
    let sign ← Reader.peek
    if sign = some '+' ∨ sign = some '-' then Reader.skip
    return some ⟨sign == some '-', ← readDigits dialect⟩
  | _ => return none

/-- A number as it is spelled. -/
def readNumeral (dialect : Dialect) : Reader Numeral := do
  let negative := (← Reader.peek) == some '-'
  if negative then Reader.skip
  return ⟨negative, ← readWhole dialect, ← readFraction dialect, ← readExponent dialect⟩

/-! ### Words and brackets -/

/-- The given characters in order, inside one of the words of the format. -/
def readWord : List Char → Reader Unit
  | [] => return
  | c :: rest => do
    match ← Reader.next with
    | none => throw (.endOfText .value)
    | some d => if d = c then readWord rest else throw .notAWord

/-- What the text of a value begins with. -/
def Token.read (dialect : Dialect) : Reader Token := do
  match ← Reader.peekSolid with
  | none => throw (.endOfText .value)
  | some 'n' => readWord "null".toList; return .null
  | some 't' => readWord "true".toList; return .boolean true
  | some 'f' => readWord "false".toList; return .boolean false
  | some '"' => Reader.skip; return .text (← readText dialect)
  | some '[' => Reader.skip; return .openList
  | some '\x7b' => Reader.skip; return .openObject
  | some c => if c = '-' ∨ c.isDigit then return .numeral (← readNumeral dialect) else throw .notAValue

/-- The number that a numeral stands for. -/
def Numeral.number (m : Numeral) : Reader Number :=
  match m.value? with
  | some n => return n
  | none => throw .numberOutOfRange

/-- The fault of a value of the wrong type. A number out of range is reported first. -/
def Token.wrongType {α : Type} (token : Token) (expected : String) : Reader α := do
  let found : Found ← match token with
    | .null => pure .null
    | .boolean b => pure (.boolean b)
    | .numeral m => do pure (.number (← m.number))
    | .text s => pure (.text s)
    | .openList => pure .list
    | .openObject => pure .object
  throw (.wrongType found expected)

end GateGrid.Json
