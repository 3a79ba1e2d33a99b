/-!
# Styled text

Escape codes for colors and attributes, written only where the output takes them.
-/

namespace GateGrid.CommandLine

/-- A color or an attribute, by the number of its escape code. -/
inductive Style where
  | red
  | green
  | yellow
  | cyan
  | bold
  | dim
deriving DecidableEq

def Style.code : Style → Nat
  | .red => 31
  | .green => 32
  | .yellow => 33
  | .cyan => 36
  | .bold => 1
  | .dim => 2

/-- The escape code with a number; `0` ends all styles. -/
def escapeCode (number : Nat) : String :=
  s!"\x1b[{number}m"

/-- The text in the given styles, or plain where there is no color. -/
def styled (color : Bool) (styles : List Style) (text : String) : String :=
  if color then String.join (styles.map fun s => escapeCode s.code) ++ text ++ escapeCode 0 else text

end GateGrid.CommandLine
