import OverrunHarness.SystemError
import OverrunHarness.Text.Utf8
/-!
# Load errors

Why an input could not be loaded. Opening and reading fail apart: a directory, say, opens but
cannot be read.
-/

namespace OverrunHarness

/-- The step of loading that failed. -/
inductive LoadStep
  /-- The path could not be opened. -/
  | opening
  /-- The path was opened, but its content could not be read. -/
  | reading
  deriving Repr, DecidableEq

/-- What made a step of loading fail. -/
inductive LoadFault
  /-- The operating system refused, with an error code. -/
  | system (code : Int)
  /-- The path holds a NUL byte, which no file name can. -/
  | nulInPath
  /-- A cause of some other kind, in its own words. -/
  | other (description : String)
  deriving Repr, DecidableEq

/-- The wording of a cause. -/
def LoadFault.text : LoadFault → String
  | system code => SystemError.text code
  | nulInPath => "file name contained an unexpected NUL byte"
  | other description => description

/-- A failed attempt to load the input at `path`. -/
structure LoadError where
  step : LoadStep
  path : Bytes
  fault : LoadFault
  deriving Repr, DecidableEq

/-- The wording of a load error. The path is shown as it is, up to `Utf8.lossy`: nothing in it is
quoted or escaped. -/
def LoadError.message (e : LoadError) : String :=
  let verb := match e.step with
    | .opening => "open"
    | .reading => "read"
  "Failed to " ++ verb ++ " " ++ Utf8.lossy e.path ++ ": " ++ e.fault.text

end OverrunHarness
