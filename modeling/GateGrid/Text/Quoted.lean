import GateGrid.Text.Unprintable

/-!
# Quoted text in messages

`quoted` sets a text between double quotes so that a message shows every character of it.
-/

namespace GateGrid.Text

/-- A character by its code point in lower-case hexadecimal digits. -/
def escapedCodePoint (c : Char) : List Char :=
  ['\\', 'u', '\x7b'] ++ Nat.toDigits 16 c.toNat ++ ['\x7d']

/-- A character between quotes: a backslash form where it would end the text, break the line or not print. -/
def quotedChar (c : Char) : List Char :=
  match c with
  | '"' => ['\\', '"']
  | '\\' => ['\\', '\\']
  | '\x00' => ['\\', '0']
  | '\t' => ['\\', 't']
  | '\n' => ['\\', 'n']
  | '\r' => ['\\', 'r']
  | c => if isUnprintable c then escapedCodePoint c else [c]

/-- The text between double quotes. -/
def quoted (text : String) : String :=
  String.ofList ('"' :: text.toList.flatMap quotedChar ++ ['"'])

end GateGrid.Text
