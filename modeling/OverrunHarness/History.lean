import OverrunHarness.Run
/-!
# Histories of files

Files come, change and go, and in between inputs are loaded and run. A step of a history answers
and leaves a file system to the next step; what answers may depend on is thus what earlier steps
left there.
-/

namespace OverrunHarness

/-- A step of a history. -/
inductive FileStep
  | write (path content : Bytes)
  | makeDirectory (path : Bytes)
  | remove (path : Bytes)
  | removeDirectory (path : Bytes)
  | load (path : Bytes)
  /-- Runs the file at a path. The words of a run without a seed and the room behind the input
  come with the step. -/
  | run (path : Bytes) (options : RunOptions) (outside : Nat → UInt32) (spare : Bytes)

/-- Whether a step is there to change files. -/
def FileStep.changes : FileStep → Bool
  | write .. | makeDirectory _ | remove _ | removeDirectory _ => true
  | load _ | run .. => false

/-- What comes of a step. -/
inductive FileAnswer
  /-- A change answers nothing. -/
  | done
  | loaded (result : Except LoadError Bytes)
  | ran (result : Except LoadError Run)

namespace FileAnswer

/-- The events reported in a step. -/
def events : FileAnswer → List Event
  | ran (.ok run) => run.events
  | _ => []

/-- The plan that a step answers with, if there is one. -/
def plan? : FileAnswer → Option Plan
  | ran (.ok run) => run.plan.toOption
  | _ => none

end FileAnswer

namespace FileSystem

/-- Makes a step. -/
def step (fs : FileSystem) : FileStep → FileAnswer × FileSystem
  | .write path content => (.done, fs.write path content)
  | .makeDirectory path => (.done, fs.makeDirectory path)
  | .remove path => (.done, fs.remove path)
  | .removeDirectory path => (.done, fs.removeDirectory path)
  | .load path => (.loaded (fs.load path), fs)
  | .run path options outside spare => (.ran (runFile fs path options outside spare), fs)

/-- Makes the steps of a history. -/
def history : FileSystem → List FileStep → List FileAnswer × FileSystem
  | fs, [] => ([], fs)
  | fs, s :: steps =>
    let (answer, next) := fs.step s
    let (answers, last) := next.history steps
    (answer :: answers, last)

theorem history_cons (fs : FileSystem) (s : FileStep) (steps : List FileStep) :
    fs.history (s :: steps) =
      ((fs.step s).1 :: ((fs.step s).2.history steps).1, ((fs.step s).2.history steps).2) := rfl

/-- A step that is not there to change files changes none. -/
theorem step_of_not_changes {s : FileStep} (h : s.changes = false) (fs : FileSystem) :
    (fs.step s).2 = fs := by
  cases s with
  | load path => rfl
  | run path options outside spare => rfl
  | write path content => cases h
  | makeDirectory path => cases h
  | remove path => cases h
  | removeDirectory path => cases h

end FileSystem

end OverrunHarness
