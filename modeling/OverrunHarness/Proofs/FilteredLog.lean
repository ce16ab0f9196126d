import Mathlib.Data.List.Basic
import OverrunHarness.Proofs.Records
import OverrunHarness.Proofs.Replay
/-!
# What a log shows

The error stream of a process is a view of the events of its run. `Invocation.events` is the whole
list, by what was loaded and by the word that is drawn; the log filter takes events out of it and
neither adds any nor changes their order (`Invocation.errors_perform`). How the record of an event
then reads, the module `Records` says.

A filter that is the name of a level shows the events up to that level (`Filter.shows_upTo`), so
the views of the five levels lie one in the other and that of the last is the whole list. Whatever
is no filter shows nothing, not even why a process gives up. Where the reader of filters breaks off
there is no view, as the process does not come to have any events.

A live run is followed as far as the model of memory goes: what a machine makes of a store that
leaves the allocation is not said here.
-/

namespace OverrunHarness

/-! ### The events of a process -/

/-- Everything that a process reports, whether or not its log shows it. -/
def Invocation.events (inv : Invocation) (loaded : Except LoadError Bytes)
    (outside : Nat → UInt32) : List Event :=
  match loaded with
  | .error e => [.fatal e]
  | .ok bs =>
    let word := inv.options.firstWord outside
    .inputLoaded inv.path bs.length :: .ofPlanning bs.length word ::
      if inv.options.dryRun then []
      else (Plan.due bs.length bs.head? word).map fun o =>
        .writingPastEnd o.branch o.offset bs.length

/-- The records of some events, one after the other. -/
def recordsOf (style : LogStyle) (clock : Nat → String) (events : List Event) : String :=
  String.join (events.mapIdx fun i e => e.record style (clock i))

theorem logText_eq (filter : Filter) (style : LogStyle) (clock : Nat → String)
    (events : List Event) :
    logText filter style clock events = recordsOf style clock (events.filter filter.shows) := rfl

theorem events_runBytes {bs : Bytes} (small : bs.length < 2 ^ 63) (opts : RunOptions)
    (outside : Nat → UInt32) (spare : Bytes) :
    (runBytes bs opts outside spare).events =
      .ofPlanning bs.length (opts.firstWord outside) ::
        if opts.dryRun then []
        else (Plan.due bs.length bs.head? (opts.firstWord outside)).map fun o =>
          .writingPastEnd o.branch o.offset bs.length := by
  have hlen : (InputBuffer.ofBytes bs spare).len + 5 < 2 ^ 64 := by
    rw [InputBuffer.len_ofBytes]
    omega
  rw [runBytes, runBuffer_of_lt hlen, InputBuffer.len_ofBytes, InputBuffer.first_ofBytes]
  cases opts.dryRun <;> rfl

namespace Invocation

variable (inv : Invocation)

/-- The events of a process whose input is loaded are those of its run. -/
theorem events_eq_of_runLoaded {loaded : Except LoadError Bytes}
    (small : ∀ bs, loaded = .ok bs → bs.length < 2 ^ 63) {outside : Nat → UInt32} {spare : Bytes}
    {run : Run} (h : runLoaded inv.path loaded inv.options outside spare = .ok run) :
    inv.events loaded outside = run.events := by
  cases loaded with
  | error e => cases h
  | ok bs =>
    obtain rfl := Except.ok.inj h
    change _ = .inputLoaded inv.path bs.length :: (runBytes bs inv.options outside spare).events
    rw [events_runBytes (small bs rfl)]
    rfl

/-- The error stream shows those events of a process that the filter shows. -/
theorem errors_perform {env : Environment} {filter : Filter} (h : env.filter? = some filter)
    {loaded : Except LoadError Bytes} (small : ∀ bs, loaded = .ok bs → bs.length < 2 ^ 63)
    (outside : Nat → UInt32) (clock : Nat → String) (spare : Bytes) :
    (inv.perform env loaded outside clock spare).errors =
      recordsOf env.style clock ((inv.events loaded outside).filter filter.shows) := by
  cases loaded with
  | error e =>
    rw [perform_error inv h]
    exact logText_eq filter env.style clock _
  | ok bs =>
    rw [perform_ok inv h, events_runBytes (small bs rfl)]
    exact logText_eq filter env.style clock _

end Invocation

/-! ### Filters of one level -/

/-- The name of a level as a filter. -/
def Level.word : Level → String
  | error => "error"
  | warn => "warn"
  | info => "info"
  | debug => "debug"
  | trace => "trace"

/-- The filter that shows events of at most a rank, wherever they come from. -/
def Filter.upTo (verbosity : Verbosity) : Filter := ⟨[⟨none, none, verbosity⟩]⟩

theorem Filter.shows_upTo (verbosity : Verbosity) (e : Event) :
    (upTo verbosity).shows e = decide (e.level.rank ≤ verbosity) := by
  have happlies : (Rule.mk none none verbosity).appliesTo e = true := rfl
  simp [upTo, shows, deciding, happlies]

theorem Filter.parse_word (l : Level) : parse l.word = .ok (upTo l.rank) := by
  cases l <;> exact ok_of_toOption (by decide +kernel)

theorem Filter.parse_off : parse "off" = .ok (upTo 0) :=
  ok_of_toOption (by decide +kernel)

theorem Level.rank_pos (l : Level) : 0 < l.rank := by
  cases l <;> decide

/-- The levels that a log of this level shows: the level itself and those that matter more. -/
def Level.shown : Level → List Level
  | error => [.error]
  | warn => [.error, .warn]
  | info => [.error, .warn, .info]
  | debug => [.error, .warn, .info, .debug]
  | trace => [.error, .warn, .info, .debug, .trace]

theorem Level.rank_le_iff (l l' : Level) : l.rank ≤ l'.rank ↔ l ∈ l'.shown := by
  cases l <;> cases l' <;> decide

theorem Level.mem_shown_trace (l : Level) : l ∈ Level.trace.shown := by
  cases l <;> decide

theorem Environment.filter?_word (env : Environment) (l : Level) :
    { env with log := some (Utf8.encode l.word) }.filter? = some (.upTo l.rank) := by
  rw [filter?_encode, Filter.parse_word, Filter.answer?]

/-- A value of the log variable that asks for no log at all. -/
inductive AsksForNoLog : Option Bytes → Prop
  | unset : AsksForNoLog none
  | notText {bs : Bytes} (h : ∀ t, bs ≠ Utf8.encode t) : AsksForNoLog (some bs)
  | noFilter {t : String} (h : Filter.parse t = .error .unreadable) :
      AsksForNoLog (some (Utf8.encode t))
  | off : AsksForNoLog (some (Utf8.encode "off"))

/-- Who asks for no log is answered for, and is shown nothing. -/
theorem AsksForNoLog.exists_filter {log : Option Bytes} (h : AsksForNoLog log)
    (env : Environment) :
    ∃ filter, { env with log := log }.filter? = some filter ∧ ∀ e, filter.shows e = false := by
  cases h with
  | unset => exact ⟨.silent, rfl, fun _ => rfl⟩
  | notText h => exact ⟨.silent, env.filter?_of_not_text h, fun _ => rfl⟩
  | noFilter h =>
    refine ⟨.silent, ?_, fun _ => rfl⟩
    rw [env.filter?_encode, h, Filter.answer?]
  | off =>
    refine ⟨.upTo 0, ?_, fun e => ?_⟩
    · rw [env.filter?_encode, Filter.parse_off, Filter.answer?]
    · rw [Filter.shows_upTo]
      exact decide_eq_false (Nat.not_le.mpr e.level.rank_pos)

/-! ### The error stream -/

/-- The events of a level and of those that matter more. -/
def atLeast (l : Level) (events : List Event) : List Event :=
  events.filter fun e => e.level ∈ l.shown

theorem atLeast_sublist {l l' : Level} (h : l ∈ l'.shown) (events : List Event) :
    (atLeast l events).Sublist (atLeast l' events) := by
  refine List.monotone_filter_right events fun e he => ?_
  rw [decide_eq_true_eq, ← Level.rank_le_iff] at he ⊢
  exact Nat.le_trans he ((Level.rank_le_iff l l').mpr h)

theorem atLeast_trace (events : List Event) : atLeast .trace events = events :=
  List.filter_eq_self.mpr fun e _ => decide_eq_true e.level.mem_shown_trace

theorem filter_shows_upTo (l : Level) (events : List Event) :
    events.filter (Filter.upTo l.rank).shows = atLeast l events := by
  refine List.filter_congr fun e _ => ?_
  rw [Filter.shows_upTo, decide_eq_decide]
  exact Level.rank_le_iff e.level l

end OverrunHarness
