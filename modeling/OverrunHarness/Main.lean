import OverrunHarness.CommandLine.Process
import Std.Time.Format
/-!
# The command line program

The outer layer. Arguments, environment, file content, entropy and time are fetched here, and what
the process leaves behind is put out. Nothing else is decided here.

A process cannot end itself by a signal from here; the exit code stands in for it as a shell would
report it, 128 and the number of the signal.
-/

namespace OverrunHarness

/-- Why a file could not be opened or read. -/
def loadFault : IO.Error → LoadFault
  | .noFileOrDirectory _ code _ | .interrupted _ code _ => .system code.toNat
  | .alreadyExists _ code _ | .invalidArgument _ code _ | .permissionDenied _ code _
  | .resourceExhausted _ code _ | .inappropriateType _ code _ | .noSuchThing _ code _ =>
    .system code.toNat
  | .otherError code _ | .resourceBusy code _ | .resourceVanished code _
  | .unsupportedOperation code _ | .hardwareFault code _ | .unsatisfiedConstraints code _
  | .illegalOperation code _ | .protocolError code _ | .timeExpired code _ => .system code.toNat
  | .unexpectedEof => .other "unexpected end of file"
  | .userError text => .other text

/-- Loads the file at a path. -/
def loadFile (path : Bytes) : IO (Except LoadError Bytes) := do
  let attempt {α : Type} (step : LoadStep) (act : IO α) : IO (Except LoadError α) := do
    match ← act.toBaseIO with
    | .ok a => return .ok a
    | .error e => return .error ⟨step, path, loadFault e⟩
  match ← attempt .opening (IO.FS.Handle.mk (Utf8.lossy path) .read) with
  | .error e => return .error e
  | .ok handle =>
    match ← attempt .reading handle.readBinToEnd with
    | .error e => return .error e
    | .ok content => return .ok content.toList

/-- The environment of this process. -/
def environment : IO Environment := do
  let value (name : String) : IO (Option Bytes) := do
    return (← IO.getEnv name).map Utf8.encode
  return ⟨← value Environment.seedName, ← value Environment.logName,
    ← value Environment.noColorName, ← value Environment.forceColorName⟩

/-- Words for a run without a seed. A run draws one at most, so one is enough. -/
def entropy : IO (Nat → UInt32) := do
  let bytes ← IO.getRandomBytes 4
  let word := bytes.toList.foldl (fun (w : UInt32) b => (w <<< 8) ||| b.toUInt32) 0
  return fun _ => word

/-- The time of day, to the microsecond. -/
def timeStamp : IO String := do
  let now ← Std.Time.Timestamp.now
  let wall := Std.Time.PlainDateTime.ofWallTime (now.toWallTime Std.Time.TimeZone.UTC.offset)
  return wall.format "uuuu-MM-dd'T'HH:mm:ss.SSSSSS'Z'"

/-- The result of this process for a command line. -/
def processResult (args : List String) : IO ProcessResult := do
  let env ← environment
  match Invocation.read (args.map Utf8.encode) env.seed with
  | .error stop => return stop.result env
  | .ok inv =>
    let loaded ← loadFile inv.path
    let outside ← entropy
    let time ← timeStamp
    return inv.perform env loaded outside fun _ => time

end OverrunHarness

/-- Runs the program. -/
def main (args : List String) : IO UInt32 := do
  let result ← OverrunHarness.processResult args
  (← IO.getStdout).putStr result.output
  (← IO.getStderr).putStr result.errors
  match result.ending with
  | .exited code => return code.toUInt32
  | .killed signal => return (128 + signal).toUInt32
