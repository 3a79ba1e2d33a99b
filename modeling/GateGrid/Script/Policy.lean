import GateGrid.Json.Record
import GateGrid.Json.Writer

/-!
# Encoding settings

The `Policy` says what becomes of an angle list of unexpected length under a header; `Settings` are read from JSON.
-/

namespace GateGrid

open Json (Reader Value Record Choice)

/-- What to do with an angle list of unexpected length. -/
inductive Policy where
  /-- Refuse it. -/
  | strict
  /-- Take what angles there is room for, with zeros for those that are missing. -/
  | lenient
deriving DecidableEq

namespace Policy

def name : Policy → String
  | .strict => "strict"
  | .lenient => "lenient"

def read : Reader Policy :=
  Choice.read ([strict, lenient].map fun p => .bare p.name p)

def toJson (p : Policy) : Value :=
  .text p.name

end Policy

/-- The settings of an encoder. -/
structure Settings where
  policy : Policy := .strict
deriving DecidableEq

namespace Settings

/-- Every setting has a default. -/
def record : Record (Option Policy) Settings where
  name := "struct EncoderConfig"
  fields := [⟨"parameter_arity", (·.isSome), fun _ => return some (← Policy.read)⟩]
  blank := none
  finish d := .ok ⟨d.getD .strict⟩

def read : Reader Settings :=
  record.read

def toJson (s : Settings) : Value :=
  .object [("parameter_arity", s.policy.toJson)]

end Settings

end GateGrid
