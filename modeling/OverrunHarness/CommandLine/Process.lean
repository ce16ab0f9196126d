import OverrunHarness.CommandLine.Help
import OverrunHarness.CommandLine.Invocation
import OverrunHarness.Log.Filter
import OverrunHarness.Log.Record
/-!
# Processes

The program as it is seen from outside: a command line, an environment and a file system go in; an
ending and two streams of text come out.

Design points:

* The log is set up before anything is loaded. If the reader of filters breaks off, the process
  panics there and then.
* An input that cannot be loaded ends the process by a **signal**, not by an exit code, so that
  whatever watches the process takes notice.
* The log goes to the error stream. Its records are the events of the run, those that the filter
  shows, in order; the time of each record is given from outside. A panic is reported there, too, by
  what the program runs on: that report belongs to the machine and is left out.
* A dry run prints its plan. A live run prints nothing: its stores are its result.
-/

namespace OverrunHarness

/-- The part of the environment that the program looks at. -/
structure Environment where
  /-- The seed in place of `--seed`. -/
  seed : Option Bytes := none
  /-- The log filter. -/
  log : Option Bytes := none
  /-- Turns colours off, unless it is empty. -/
  noColor : Option Bytes := none
  /-- Turns the colours of messages on, unless it is empty or colours are off. -/
  forceColor : Option Bytes := none
  deriving Repr, DecidableEq

namespace Environment

/-- The name of the variable that holds the seed. -/
def seedName : String := "OOB_HARNESS_SEED"

/-- The name of the variable that holds the log filter. -/
def logName : String := "OOB_HARNESS_LOG"

/-- The name of the variable that turns colours off. -/
def noColorName : String := "NO_COLOR"

/-- The name of the variable that turns the colours of messages on. -/
def forceColorName : String := "CLICOLOR_FORCE"

/-- The log filter, if its reader does not break off. A variable that is not set, not text or no
filter shows nothing. -/
def filter? (env : Environment) : Option Filter :=
  (env.log.bind Utf8.decode?).elim (some .silent) fun text => Filter.answer? (Filter.parse text)

/-- How the log is written. -/
def style (env : Environment) : LogStyle :=
  match env.noColor.bind Utf8.decode? with
  | none | some "" => .coloured
  | some _ => .plain

/-- Whether messages of the command line have colours. Neither stream is a terminal, so they have
none unless they are to have them in any case. -/
def messageColours (env : Environment) : Bool :=
  (env.noColor.getD []).isEmpty && !(env.forceColor.getD []).isEmpty

end Environment

/-- How a process ended. -/
inductive Ending
  | exited (code : Nat)
  | killed (signal : Nat)
  deriving Repr, DecidableEq

namespace Ending

/-- The ending of a process that did what it was asked. -/
def success : Ending := .exited 0

/-- The ending after a usage error. -/
def usageError : Ending := .exited 2

/-- The ending after a panic: an overflow, or a log filter that its reader breaks off on. -/
def panicked : Ending := .exited 101

/-- The ending of a process that gives up: the abort signal. -/
def aborted : Ending := .killed 6

end Ending

/-- What a process leaves behind. -/
structure ProcessResult where
  ending : Ending
  /-- The output stream. -/
  output : String
  /-- The error stream, but for the report of a panic. -/
  errors : String
  deriving Repr, DecidableEq

/-- The log of a list of events. Record `i` carries the time `clock i`. -/
def logText (filter : Filter) (style : LogStyle) (clock : Nat → String) (events : List Event) :
    String :=
  String.join <| (events.filter filter.shows).mapIdx fun i e => e.record style (clock i)

/-- Runs what an invocation asks for on what was loaded from its path, or could not be. The room
that loading leaves behind the input is given from outside, too. -/
def Invocation.perform (inv : Invocation) (env : Environment) (loaded : Except LoadError Bytes)
    (outside : Nat → UInt32) (clock : Nat → String) (spare : Bytes := []) : ProcessResult :=
  match env.filter? with
  | none => ⟨.panicked, "", ""⟩
  | some filter =>
    let log := logText filter env.style clock
    match runLoaded inv.path loaded inv.options outside spare with
    | .error e => ⟨.aborted, "", log [.fatal e]⟩
    | .ok run =>
      match run.plan with
      | .error _ => ⟨.panicked, "", log run.events⟩
      | .ok plan => ⟨.success, if inv.options.dryRun then plan.print else "", log run.events⟩

/-- The result of a process that was stopped by its command line. -/
def Stop.result (stop : Stop) (env : Environment) : ProcessResult :=
  match stop with
  | .help => ⟨.success, (Help.page env.seed).render env.messageColours, ""⟩
  | .version => ⟨.success, Help.version.render env.messageColours, ""⟩
  | .usage e => ⟨.usageError, "", e.message.render env.messageColours⟩

/-- Runs a process, given what loading comes to at each path. -/
def runProcessOn (args : List Bytes) (env : Environment) (load : Bytes → Except LoadError Bytes)
    (outside : Nat → UInt32) (clock : Nat → String) (spare : Bytes := []) : ProcessResult :=
  match Invocation.read args env.seed with
  | .error stop => stop.result env
  | .ok inv => inv.perform env (load inv.path) outside clock spare

/-- Runs a process on a file system. -/
def runProcess (args : List Bytes) (env : Environment) (fs : FileSystem) (outside : Nat → UInt32)
    (clock : Nat → String) (spare : Bytes := []) : ProcessResult :=
  runProcessOn args env fs.load outside clock spare

end OverrunHarness
