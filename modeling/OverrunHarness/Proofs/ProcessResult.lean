import OverrunHarness.Proofs.FilterReading
import OverrunHarness.Proofs.Stores
/-!
# What a process leaves behind

How a process ends and what it puts out, for every command line that is understood and for whatever
comes of loading its input.

* There are two cases. If the reader of filters breaks off, the process panics with nothing done
  (`Invocation.perform_of_none`). If it answers, the ending and the output are a function of what
  was loaded and of the plan, and the log goes to the other stream (`Invocation.perform_error`,
  `Invocation.perform_ok`).
* A run with a seed plans the same whatever is drawn outside. So two processes that differ in
  nothing but how they log, in the time and in the room behind their input end alike and put out
  the same (`Invocation.perform_congr`).
-/

namespace OverrunHarness

/-- What came out well can be compared without a way to compare faults. -/
theorem ok_of_toOption {ε α : Type} {x : Except ε α} {a : α} (h : x.toOption = some a) :
    x = .ok a := by
  cases x with
  | error _ => cases h
  | ok _ => exact congrArg Except.ok (Option.some.inj h)

/-- The generator of a seed asks nothing of the words that come from outside. -/
theorem RunOptions.generator_of_seed {opts : RunOptions} (h : opts.seed.isSome = true)
    (outside outside' : Nat → UInt32) : opts.generator outside = opts.generator outside' := by
  obtain ⟨seed, hseed⟩ := Option.isSome_iff_exists.mp h
  rw [generator, generator, hseed]

namespace Invocation

/-- How a process ends and what it puts out, by what planning came to. -/
def outcome (inv : Invocation) : Except OffsetOverflow Plan → Ending × String
  | .error _ => (.panicked, "")
  | .ok plan =>
    (.exited 0, if inv.options.dryRun then String.join (plan.map fun o => o.line ++ "\n") else "")

variable (inv : Invocation) {env : Environment} {filter : Filter}

/-- If the reader of filters breaks off, nothing else is done. -/
theorem perform_of_none (h : env.filter? = none) (loaded : Except LoadError Bytes)
    (outside : Nat → UInt32) (clock : Nat → String) (spare : Bytes) :
    inv.perform env loaded outside clock spare = ⟨.panicked, "", ""⟩ := by
  rw [perform, h]

/-- A process that could not load its input gives up, and logs why. -/
theorem perform_error (h : env.filter? = some filter) (e : LoadError) (outside : Nat → UInt32)
    (clock : Nat → String) (spare : Bytes) :
    inv.perform env (.error e) outside clock spare =
      ⟨.aborted, "", logText filter env.style clock [.fatal e]⟩ := by
  rw [perform, h]
  rfl

/-- A process that could load its input shows of itself what planning came to, its log apart. -/
theorem perform_ok (h : env.filter? = some filter) (bs : Bytes) (outside : Nat → UInt32)
    (clock : Nat → String) (spare : Bytes) :
    inv.perform env (.ok bs) outside clock spare =
      let shown :=
        inv.outcome (planOverruns bs.length bs.head? (inv.options.generator outside)).plan
      ⟨shown.1, shown.2, logText filter env.style clock
        (.inputLoaded inv.path bs.length :: (runBytes bs inv.options outside spare).events)⟩ := by
  dsimp only
  rw [← plan_runBytes bs inv.options outside spare, perform, h, runLoaded]
  dsimp only [Except.map]
  cases (runBytes bs inv.options outside spare).plan with
  | error overflow => rfl
  | ok plan => rfl

/-- With a seed, the ending and the output depend on the input and the options alone, and on
whether there is a filter at all. -/
theorem perform_congr {inv : Invocation} (hseed : inv.options.seed.isSome = true)
    {env env' : Environment} (hlog : env'.LogAnswered ↔ env.LogAnswered)
    (loaded : Except LoadError Bytes) (outside outside' : Nat → UInt32)
    (clock clock' : Nat → String) (spare spare' : Bytes) :
    (inv.perform env' loaded outside' clock' spare').ending =
        (inv.perform env loaded outside clock spare).ending ∧
      (inv.perform env' loaded outside' clock' spare').output =
        (inv.perform env loaded outside clock spare).output := by
  by_cases hanswered : env.LogAnswered
  · obtain ⟨filter, hfilter⟩ := hanswered
    obtain ⟨filter', hfilter'⟩ := hlog.mpr ⟨filter, hfilter⟩
    cases loaded with
    | error e =>
      rw [perform_error inv hfilter, perform_error inv hfilter']
      exact ⟨rfl, rfl⟩
    | ok bs =>
      rw [perform_ok inv hfilter, perform_ok inv hfilter',
        RunOptions.generator_of_seed hseed outside' outside]
      exact ⟨rfl, rfl⟩
  · have hnone := Environment.not_logAnswered_iff.mp hanswered
    have hnone' := Environment.not_logAnswered_iff.mp (hlog.not.mpr hanswered)
    rw [perform_of_none inv hnone, perform_of_none inv hnone']
    exact ⟨rfl, rfl⟩

end Invocation

theorem runProcessOn_of_read {args : List Bytes} {inv : Invocation} (env : Environment)
    (h : Invocation.read args env.seed = .ok inv) (load : Bytes → Except LoadError Bytes)
    (outside : Nat → UInt32) (clock : Nat → String) (spare : Bytes) :
    runProcessOn args env load outside clock spare =
      inv.perform env (load inv.path) outside clock spare := by
  rw [runProcessOn, h]

theorem runProcess_of_read {args : List Bytes} {inv : Invocation} (env : Environment)
    (h : Invocation.read args env.seed = .ok inv) (fs : FileSystem) (outside : Nat → UInt32)
    (clock : Nat → String) (spare : Bytes) :
    runProcess args env fs outside clock spare =
      inv.perform env (fs.load inv.path) outside clock spare :=
  runProcessOn_of_read env h fs.load outside clock spare

end OverrunHarness
