import OverrunHarness.CommandLine.Token
import OverrunHarness.CommandLine.UsageError
import OverrunHarness.Run
/-!
# Invocations

Reading a command line: `[--seed SEED] [--dry-run] PATH`, in any order. The answer is an
invocation, a call for help or for the version, or an error.

Design points:

* Arguments are read **from the left, and the first fault met is the one reported**. A value that
  needs looking into (a seed given as an argument of its own, a path) is looked into only when the
  next argument that is not part of it turns up, or at the end; until then it is `pending`.
  Two faults in one command line show this.
* An argument that looks like an option is never the value of the option in front of it.
* The seed of the environment counts only if there is no `--seed`, and is looked into only after
  all arguments were.
-/

namespace OverrunHarness

/-- A command line understood: what to load and how to run. -/
structure Invocation where
  path : Bytes
  options : RunOptions
  deriving Repr, DecidableEq

/-- Why reading a command line ended without an invocation. -/
inductive Stop
  /-- Help was asked for. -/
  | help
  /-- The version was asked for. -/
  | version
  | usage (error : UsageError)
  deriving Repr, DecidableEq

/-- An argument that was met but not looked into yet. -/
inductive Pending
  /-- The option `--seed`, with its value once that was met. -/
  | seed (value : Option Bytes)
  | path (value : Bytes)
  deriving Repr, DecidableEq

/-- What was read of a command line so far. -/
structure Progress where
  /-- The arguments looked into, in order. -/
  given : List Argument := []
  seed : Option UInt64 := none
  dryRun : Bool := false
  path : Option Bytes := none
  pending : Option Pending := none
  deriving Repr, DecidableEq

/-- Reads the text of a seed. -/
def readSeed (value : Bytes) : Except UsageError UInt64 :=
  match Utf8.decode? value with
  | none => .error .seedNotText
  | some text =>
    match Decimal.read text.toList with
    | .error fault => .error (.invalidSeed text fault)
    | .ok seed => .ok seed

namespace Progress

/-- Takes a seed; there can be one only. -/
def takeSeed (p : Progress) (value : Bytes) : Except UsageError Progress :=
  match p.seed with
  | some _ => .error (.repeated .seed)
  | none => (readSeed value).map fun seed =>
    { p with seed := some seed, given := p.given ++ [.switch .seed] }

/-- Takes the path, which must not be empty. -/
def takePath (p : Progress) (value : Bytes) : Except UsageError Progress :=
  if value = [] then .error (.missingValue .path)
  else .ok { p with path := some value, given := p.given ++ [.path] }

/-- Looks into what is pending. -/
def settle (p : Progress) : Except UsageError Progress :=
  match p.pending with
  | none => .ok p
  | some (.seed none) => .error (.missingValue (.switch .seed))
  | some (.seed (some value)) => takeSeed { p with pending := none } value
  | some (.path value) => takePath { p with pending := none } value

/-- The arguments met so far, the pending one included, whether or not there is a fault in it. A
seed that is given again cancels the one before it. -/
def met (p : Progress) : List Argument :=
  match p.pending with
  | none | some (.seed none) => p.given
  | some (.seed (some _)) =>
    if p.seed.isSome then p.given.erase (.switch .seed) else p.given ++ [.switch .seed]
  | some (.path _) => p.given ++ [.path]

/-- Whether the next argument is the value of `--seed`, unless it looks like an option. -/
def awaitsSeed (p : Progress) : Bool := p.pending = some (.seed none)

/-- Whether a path was met. -/
def hasPath (p : Progress) : Bool :=
  p.path.isSome || (match p.pending with
    | some (.path _) => true
    | _ => false)

/-- Meets an operand. -/
def operand (p : Progress) (value : Bytes) : Except UsageError Progress :=
  if p.hasPath then .error (.extraOperand value)
  else p.settle.map fun q => { q with pending := some (.path value) }

/-- Meets an option by name. -/
def option (p : Progress) (name : Bytes) (value : Option Bytes) : Except Stop Progress :=
  match Switch.ofName? name, value with
  | none, _ => .error (.usage (.unknownName name p.met))
  | some .seed, some v => ((p.settle).bind (takeSeed · v)).mapError .usage
  | some .seed, none =>
    (p.settle.map fun q => { q with pending := some (.seed none) }).mapError .usage
  | some s, some v => .error (.usage (.unexpectedValue v s p.given))
  | some s, none =>
    match p.settle with
    | .error e => .error (.usage e)
    | .ok q =>
      match s with
      | .help => .error .help
      | .version => .error .version
      | _ =>
        if q.dryRun then .error (.usage (.repeated .dryRun))
        else .ok { q with dryRun := true, given := q.given ++ [.switch .dryRun] }

/-- Meets letters behind a single dash. The first of them decides, as none takes a value. -/
def letters (p : Progress) (first : UInt8) (rest : Bytes) : Stop :=
  match (Utf8.next first rest).1 with
  | none => .usage (.unknownLetter (Utf8.lossy (first :: rest)))
  | some letter =>
    if letter = 'h' ∨ letter = 'V' then
      match p.settle with
      | .error e => .usage e
      | .ok _ => if letter = 'h' then .help else .version
    else .usage (.unknownLetter (String.singleton letter))

/-- Reads arguments up to the end. -/
def read : Progress → List Bytes → Except Stop Progress
  | p, [] => .ok p
  | p, arg :: args =>
    match Token.ofBytes arg with
    | .separator => (args.foldlM operand p).mapError .usage
    | .long name value => (p.option name value).bind (read · args)
    | .short first rest => .error (p.letters first rest)
    | .plain =>
      if p.awaitsSeed then read { p with pending := some (.seed (some arg)) } args
      else ((p.operand arg).mapError .usage).bind (read · args)

/-- Closes the reading: what is pending, then the seed of the environment, then the path. -/
def finish (p : Progress) (environmentSeed : Option Bytes) : Except UsageError Invocation :=
  p.settle.bind fun q =>
    let seeded := match q.seed, environmentSeed with
      | none, some value => q.takeSeed value
      | _, _ => .ok q
    seeded.bind fun r =>
      match r.path with
      | none => .error (.missingPath r.given)
      | some path => .ok ⟨path, ⟨r.seed, r.dryRun⟩⟩

end Progress

/-- Reads a command line, given the seed of the environment. -/
def Invocation.read (args : List Bytes) (environmentSeed : Option Bytes) : Except Stop Invocation :=
  (Progress.read {} args).bind fun p => (p.finish environmentSeed).mapError .usage

end OverrunHarness
