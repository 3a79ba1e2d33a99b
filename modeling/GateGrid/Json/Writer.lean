import GateGrid.Json.Value

/-!
# Writing JSON

`Value.compact` writes a tree without any white space, `Value.pretty` on several lines with two spaces for each level.
-/

namespace GateGrid.Json

/-- The letter behind the backslash of a short escape. -/
def escapeLetter? : Char → Option Char
  | '"' => some '"'
  | '\\' => some '\\'
  | '\x08' => some 'b'
  | '\t' => some 't'
  | '\n' => some 'n'
  | '\x0c' => some 'f'
  | '\r' => some 'r'
  | _ => none

/-- A character inside a text: quotes, backslashes and control characters are escaped, and nothing else. -/
def writeChar (c : Char) : List Char :=
  match escapeLetter? c with
  | some letter => ['\\', letter]
  | none =>
    if c.toNat < 0x20 then
      ['\\', 'u', '0', '0', Nat.digitChar (c.toNat / 16), Nat.digitChar (c.toNat % 16)]
    else [c]

/-- A text between quotes. -/
def writeText (s : String) : List Char :=
  '"' :: s.toList.flatMap writeChar ++ ['"']

namespace Value

/-- The forms of the values without items or members. -/
def writeScalar : Value → List Char
  | .null => "null".toList
  | .boolean b => (if b then "true" else "false").toList
  | .number n => n.text.toList
  | .text s => writeText s
  | .list _ => []
  | .object _ => []

/-! ### Without white space -/

mutual

def writeCompact : Value → List Char
  | .list items => '[' :: [','].intercalate (writeItems items) ++ [']']
  | .object members => '\x7b' :: [','].intercalate (writeMembers members) ++ ['\x7d']
  | scalar => scalar.writeScalar

def writeItems : List Value → List (List Char)
  | [] => []
  | v :: rest => v.writeCompact :: writeItems rest

def writeMembers : List (String × Value) → List (List Char)
  | [] => []
  | (key, v) :: rest => (writeText key ++ ':' :: v.writeCompact) :: writeMembers rest

end

/-- The tree without any white space. -/
def compact (v : Value) : String :=
  String.ofList v.writeCompact

/-! ### On several lines -/

/-- A new line at an indentation level. -/
def newLine (level : Nat) : List Char :=
  '\n' :: List.replicate (2 * level) ' '

/-- Items or members between brackets, each on a line of its own; nothing stands between brackets without any. -/
def bracketed (opening closing : Char) (level : Nat) (parts : List (List Char)) : List Char :=
  if parts.isEmpty then [opening, closing]
  else opening :: newLine (level + 1) ++ (',' :: newLine (level + 1)).intercalate parts ++
    newLine level ++ [closing]

mutual

def writePretty (level : Nat) : Value → List Char
  | .list items => bracketed '[' ']' level (writePrettyItems (level + 1) items)
  | .object members => bracketed '\x7b' '\x7d' level (writePrettyMembers (level + 1) members)
  | scalar => scalar.writeScalar

def writePrettyItems (level : Nat) : List Value → List (List Char)
  | [] => []
  | v :: rest => v.writePretty level :: writePrettyItems level rest

def writePrettyMembers (level : Nat) : List (String × Value) → List (List Char)
  | [] => []
  | (key, v) :: rest =>
    (writeText key ++ ':' :: ' ' :: v.writePretty level) :: writePrettyMembers level rest

end

/-- The tree with every item and member on a line of its own. -/
def pretty (v : Value) : String :=
  String.ofList (v.writePretty 0)

end Value

end GateGrid.Json
