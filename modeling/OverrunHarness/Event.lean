import OverrunHarness.LoadError
import OverrunHarness.Overrun
/-!
# Events

What a run reports while it works. An event is a value of its own; its level, its target (the part
of the program that speaks), its message and its fields are functions of it, so that the order and
the content of a log can be reasoned about without any text.
-/

namespace OverrunHarness

/-- How much an event matters, from the gravest down. -/
inductive Level
  | error
  | warn
  | info
  | debug
  | trace
  deriving Repr, DecidableEq

namespace Level

/-- Verbosity: the graver the level, the smaller. -/
def rank : Level → Nat
  | error => 1
  | warn => 2
  | info => 3
  | debug => 4
  | trace => 5

/-- The name as log lines show it. -/
def name : Level → String
  | error => "ERROR"
  | warn => "WARN"
  | info => "INFO"
  | debug => "DEBUG"
  | trace => "TRACE"

end Level

/-- Something worth reporting that happened in a run. -/
inductive Event
  /-- An input of `len` bytes was loaded from `path`. -/
  | inputLoaded (path : Bytes) (len : Nat)
  /-- The length is even, so neither branch is looked at. -/
  | evenLength (len : Nat)
  /-- The random branch was drawn for a buffer of `len` bytes. -/
  | randomDrawn (len : Nat) (residue : UInt32)
  /-- A store past the end of a buffer of `len` bytes is about to be made. -/
  | writingPastEnd (branch : Branch) (offset : Nat) (len : Nat)
  /-- The input could not be loaded and the process gives up. -/
  | fatal (error : LoadError)
  deriving Repr, DecidableEq

namespace Event

/-- How much the event matters. -/
def level : Event → Level
  | inputLoaded .. => .debug
  | evenLength .. => .trace
  | randomDrawn .. => .debug
  | writingPastEnd .. => .warn
  | fatal .. => .error

/-- The part of the program that reports the event. -/
def target : Event → String
  | inputLoaded .. | writingPastEnd .. => "oob_harness::harness"
  | evenLength .. | randomDrawn .. => "oob_harness::trigger"
  | fatal .. => "oob_harness"

/-- The fixed part of the report. -/
def message : Event → String
  | inputLoaded .. => "input loaded"
  | evenLength .. => "even length, no trigger evaluated"
  | randomDrawn .. => "random branch drawn"
  | writingPastEnd .. => "writing past end of input buffer"
  | fatal .. => "fatal"

/-- The variable part of the report: names and values, in order. -/
def fields : Event → List (String × String)
  | inputLoaded path len => [("path", Utf8.lossy path), ("len", len.repr)]
  | evenLength len => [("len", len.repr)]
  | randomDrawn len residue => [("len", len.repr), ("residue", residue.toNat.repr)]
  | writingPastEnd branch offset len =>
    [("branch", "\"" ++ branch.name ++ "\""), ("offset", offset.repr), ("len", len.repr)]
  | fatal error => [("error", error.message)]

/-- The event in one line, without time or colours. -/
def text (e : Event) : String :=
  e.level.name ++ " " ++ e.target ++ ": " ++ e.message ++
    String.join (e.fields.map fun (name, value) => " " ++ name ++ "=" ++ value)

end Event

end OverrunHarness
