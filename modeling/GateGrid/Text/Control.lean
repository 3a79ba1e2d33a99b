import GateGrid.Text.Quoted

/-!
# Control characters in a log message

`spelledOut` writes the characters with which a text could steer a terminal as backslash forms. Every other character
stands for itself, the remaining control characters and line breaks included.
-/

namespace GateGrid.Text

/-- Escape, the bell, the backward steps and the page break in two hexadecimal digits; the controls behind ASCII by
their code points. -/
def spelledOutChar (c : Char) : List Char :=
  match c with
  | '\x07' => ['\\', 'x', '0', '7']
  | '\x08' => ['\\', 'x', '0', '8']
  | '\x0c' => ['\\', 'x', '0', 'c']
  | '\x1b' => ['\\', 'x', '1', 'b']
  | '\x7f' => ['\\', 'x', '7', 'f']
  | c => if 0x80 ≤ c.toNat ∧ c.toNat < 0xA0 then escapedCodePoint c else [c]

/-- The text with no character that steers a terminal. -/
def spelledOut (text : String) : String :=
  String.ofList (text.toList.flatMap spelledOutChar)

end GateGrid.Text
