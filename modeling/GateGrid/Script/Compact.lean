import GateGrid.Script.Encoding

/-!
# The compact form

The rows of a script alone, taken from its text.
-/

namespace GateGrid

/-- The lines of a text. -/
def lines : List Char → List (List Char)
  | [] => [[]]
  | c :: rest =>
    if c = '\n' then [] :: lines rest
    else match lines rest with
      | [] => [[c]]
      | line :: others => (c :: line) :: others

/-- The line without the separators and terminators at its end. -/
def trimMarks (line : List Char) : List Char :=
  (line.reverse.dropWhile fun c => c == ',' || c == ':').reverse

/-- The rows of a script's text: all lines but the first and the headers. -/
def compactText (text : String) : String :=
  String.ofList ((((lines text.toList).drop 1).filter fun line => line.head? != some '\x7b').flatMap trimMarks)

/-- The rows of a circuit's script, one after the other. -/
def Circuit.compactString (policy : Policy) (c : Circuit) : Except EncodeError String :=
  (c.fileString policy).map compactText

end GateGrid
