/-!
# Text for an output without styles

`plain` takes the terminal sequences out of a text, and the control characters that are no white space. A sequence
starts with the escape character; `Sequence.next` follows it to its end. A line break or a tab inside a sequence shows,
and with it the text behind it, up to the next control character.
-/

namespace GateGrid.Text

/-- Where a text stands in a terminal sequence. -/
inductive Sequence where
  | outside
  /-- Behind the escape character. -/
  | escape
  /-- Behind the escape character and a mark. -/
  | escapeMarks
  /-- In a control sequence, which ends with a letter. -/
  | control
  /-- In front of the parameters of a device string. -/
  | device
  /-- Among the parameters of a device string. -/
  | deviceParameters
  /-- Behind a mark in front of a device string. -/
  | deviceMarks
  /-- In a string, up to its terminator. -/
  | string
  /-- In a command to the system, which the bell ends. -/
  | command
deriving DecidableEq

namespace Sequence

/-- One of the marks from the space to the slash. -/
def isMark (c : Char) : Bool :=
  ' ' ≤ c && c ≤ '/'

/-- The kind of a sequence, told by the character behind the escape character. -/
def behindEscape (c : Char) : Sequence :=
  match c with
  | '[' => .control
  | ']' => .command
  | 'P' => .device
  | 'X' | '^' | '_' => .string
  | c => if isMark c then .escapeMarks else if '0' ≤ c ∧ c ≤ '~' then .outside else .escape

/-- A byte of the character is the terminator of a string. -/
def endsString (c : Char) : Bool :=
  (String.utf8EncodeChar c).contains 0x9C

/-- Where a text stands behind one more character. Three characters are heard everywhere: escape starts a sequence, and
cancel and substitute end one. -/
def next (s : Sequence) (c : Char) : Sequence :=
  if c = '\x1b' then .escape
  else if c = '\x18' ∨ c = '\x1a' then .outside
  else match s with
    | .outside => .outside
    | .escape => behindEscape c
    | .escapeMarks => if '0' ≤ c ∧ c ≤ '~' then .outside else .escapeMarks
    | .control => if '@' ≤ c ∧ c ≤ '~' then .outside else .control
    | .device =>
      if isMark c then .deviceMarks else if '0' ≤ c ∧ c ≤ '?' then .deviceParameters
      else if '@' ≤ c ∧ c ≤ '~' then .string else .device
    | .deviceParameters =>
      if isMark c then .deviceMarks else if '<' ≤ c ∧ c ≤ '~' then .string else .deviceParameters
    | .deviceMarks => if '0' ≤ c ∧ c ≤ '~' then .string else .deviceMarks
    | .string => if endsString c then .outside else .string
    | .command => if c = '\x07' then .outside else .command

/-- White space among the control characters is obeyed inside these sequences. -/
def obeysSpace : Sequence → Bool
  | .outside | .escape | .escapeMarks | .control => true
  | _ => false

end Sequence

/-- A control character that is white space. -/
def isSpaceControl (c : Char) : Bool :=
  c == '\t' || c == '\n' || c == '\x0c' || c == '\r'

/-- A character that shows outside sequences. -/
def isShown (c : Char) : Bool :=
  ' ' ≤ c && c != '\x7f' || isSpaceControl c

/-- What shows of a text from a place in a sequence on. `shows` says that the character before has shown. -/
def plainFrom (shows : Bool) (s : Sequence) : List Char → List Char
  | [] => []
  | c :: rest =>
    if (shows ∨ s = .outside) ∧ isShown c ∨ s.obeysSpace ∧ isSpaceControl c then
      c :: plainFrom true (if c.toNat < 0x80 then s else .outside) rest
    else plainFrom false (s.next c) rest

/-- The text without terminal sequences and control characters. -/
def plain (text : String) : String :=
  String.ofList (plainFrom true .outside text.toList)

end GateGrid.Text
