import GateGrid.Script.Error

/-!
# The log of an encoding

An encoding reports each thing that it does as it does it: the circuit that it turns to, how much there is to do, each
instruction done, and the number of blocks at the end. A `Logged` computation makes such reports and may fail. What it
has reported by then stands.
-/

namespace GateGrid

/-- How much detail a log record is. -/
inductive Level where
  | info
  | debug
  | trace
deriving DecidableEq

/-- A log record. -/
inductive Event where
  | started (instructions declared width : Nat)
  | skipped (name : String)
  | encoded (symbol : Symbol) (row : List Char)
  | finished (blocks : Nat)
deriving DecidableEq

namespace Event

def level : Event → Level
  | .started .. => .debug
  | .skipped _ => .trace
  | .encoded .. => .trace
  | .finished _ => .debug

def message : Event → String
  | .started instructions declared width =>
    s!"Encoding {instructions} instructions over {declared} declared qubits, row width {width}"
  | .skipped name => s!"Skipping {name}"
  | .encoded .. => "Encoded gate"
  | .finished blocks => s!"Encoded {blocks} gate blocks"

end Event

/-- What is sent to the log. -/
inductive Report where
  /-- The span of a circuit's encoding is entered: the records that follow stand under its name. -/
  | entered (circuit : String)
  | event (e : Event)
deriving DecidableEq

/-- A computation that sends reports to the log and may fail. -/
structure Logged (α : Type) where
  log : List Report
  result : Except EncodeError α

namespace Logged

/-- What follows a failure is not run. -/
instance : Monad Logged where
  pure a := ⟨[], .ok a⟩
  bind x f :=
    match x.result with
    | .ok a => ⟨x.log ++ (f a).log, (f a).result⟩
    | .error e => ⟨x.log, .error e⟩

/-- A check sends nothing to the log. -/
instance : MonadLift (Except EncodeError) Logged where
  monadLift check := ⟨[], check⟩

def enter (circuit : String) : Logged Unit :=
  ⟨[.entered circuit], .ok ()⟩

def emit (e : Event) : Logged Unit :=
  ⟨[.event e], .ok ()⟩

section Laws

variable {α β : Type} {x : Logged α} {f : α → Logged β}

theorem bind_of_ok {a : α} (h : x.result = .ok a) : x >>= f = ⟨x.log ++ (f a).log, (f a).result⟩ := by
  obtain ⟨log, result⟩ := x
  obtain rfl : result = .ok a := h
  rfl

theorem bind_of_error {e : EncodeError} (h : x.result = .error e) : x >>= f = ⟨x.log, .error e⟩ := by
  obtain ⟨log, result⟩ := x
  obtain rfl : result = .error e := h
  rfl

theorem lift_ok_bind (a : α) : (liftM (.ok a : Except EncodeError α) : Logged α) >>= f = f a := rfl

@[simp] theorem result_bind : (x >>= f).result = x.result >>= fun a => (f a).result := by
  cases h : x.result with
  | ok a =>
    rw [bind_of_ok h]
    rfl
  | error e =>
    rw [bind_of_error h]
    rfl

@[simp] theorem result_pure (a : α) : (pure a : Logged α).result = .ok a := rfl

@[simp] theorem result_emit (e : Event) : (emit e).result = .ok () := rfl

@[simp] theorem result_lift (check : Except EncodeError α) : (liftM check : Logged α).result = check := rfl

end Laws

end Logged

end GateGrid
