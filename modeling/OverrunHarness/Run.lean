import OverrunHarness.FileSystem
import OverrunHarness.Hash.Sip
import OverrunHarness.InputBuffer
import OverrunHarness.Plan
/-!
# Runs

A run plans the overruns of a buffer and, unless it is a dry run, makes them.

Design points:

* A run without a seed takes its words from **outside**: every function here is given a stream of
  words for that case and ignores it when there is a seed.
* Overruns are made one at a time, each announced by an event that reads the length off the buffer
  as it then is. `Run.stores` lists the stores that were made, whether or not the allocation
  reaches as far as they do.
-/

namespace OverrunHarness

/-- How a run is to be made. -/
structure RunOptions where
  /-- The seed of the random branch; without one, its words come from outside. -/
  seed : Option UInt64 := none
  /-- Plan the overruns, but make none. -/
  dryRun : Bool := false
  deriving Repr, DecidableEq

/-- The generator of a run. -/
def RunOptions.generator (opts : RunOptions) (outside : Nat → UInt32) : Generator :=
  match opts.seed with
  | some seed => .seeded seed
  | none => .ofWords outside

/-- The seed that stands for an input: its hash. Runs that are to be repeated from the input alone
use it, so that the random branch still fires on some inputs and not on others. -/
def seedForInput (bs : Bytes) : UInt64 := Sip.hash bs

/-- A byte stored at a distance from the start of a buffer. -/
structure Store where
  offset : Nat
  value : UInt8
  deriving Repr, DecidableEq

/-- What came of a run. -/
structure Run where
  plan : Except OffsetOverflow Plan
  /-- The events reported, in order. -/
  events : List Event
  /-- The stores made, in order. -/
  stores : List Store
  /-- The buffer as the run left it. -/
  buffer : InputBuffer

/-- Makes the overruns of a plan one after the other. -/
def performOverruns : InputBuffer → Plan → List Event × List Store × InputBuffer
  | buffer, [] => ([], [], buffer)
  | buffer, o :: plan =>
    let (events, stores, last) := performOverruns (buffer.store o.offset o.value) plan
    (.writingPastEnd o.branch o.offset buffer.len :: events, ⟨o.offset, o.value⟩ :: stores, last)

/-- A run over a buffer. -/
def runBuffer (buffer : InputBuffer) (opts : RunOptions) (outside : Nat → UInt32) : Run :=
  let planning := planOverruns buffer.len buffer.first (opts.generator outside)
  match planning.plan, opts.dryRun with
  | .ok plan, false =>
    let (events, stores, last) := performOverruns buffer plan
    ⟨.ok plan, planning.events ++ events, stores, last⟩
  | outcome, _ => ⟨outcome, planning.events, [], buffer⟩

/-- A run over bytes that are in memory already, with the cells `spare` behind them. -/
def runBytes (bs : Bytes) (opts : RunOptions) (outside : Nat → UInt32)
    (spare : Bytes := []) : Run :=
  runBuffer (.ofBytes bs spare) opts outside

/-- A run over what was loaded from a path, or could not be. A failure reports nothing; a success
is reported ahead of everything else. -/
def runLoaded (path : Bytes) (loaded : Except LoadError Bytes) (opts : RunOptions)
    (outside : Nat → UInt32) (spare : Bytes := []) : Except LoadError Run :=
  loaded.map fun bs =>
    let run := runBytes bs opts outside spare
    { run with events := .inputLoaded path bs.length :: run.events }

/-- A run over the file at a path. -/
def runFile (fs : FileSystem) (path : Bytes) (opts : RunOptions) (outside : Nat → UInt32)
    (spare : Bytes := []) : Except LoadError Run :=
  runLoaded path (fs.load path) opts outside spare

end OverrunHarness
