import OverrunHarness.CommandLine.Styled
import OverrunHarness.Text.Decimal
import OverrunHarness.Text.Similarity
/-!
# Arguments and usage errors

The arguments that the command line knows, and what can be wrong with a command line. An error is
kept as its cause; `UsageError.message` words it, with a tip where there is one to give and with a
usage line where the error is about the command line as a whole.

The usage line repeats the arguments that were given so far and adds what is missing; if none were
given, it is the general one. Behind a value that no option asked for, it does not repeat the
arguments of a run but says what they may be (`UsageError.usageWithRun`).
-/

namespace OverrunHarness

/-- The options that the command line knows. -/
inductive Switch
  /-- `--seed`, with a value. -/
  | seed
  /-- `--dry-run`. -/
  | dryRun
  /-- `--help`. -/
  | help
  /-- `--version`. -/
  | version
  deriving Repr, DecidableEq

namespace Switch

/-- All options, in the order in which they are listed. -/
def all : List Switch := [.seed, .dryRun, .help, .version]

/-- The name behind the two dashes. -/
def name : Switch → String
  | seed => "seed"
  | dryRun => "dry-run"
  | help => "help"
  | version => "version"

/-- What stands for the value of the option. -/
def placeholder : Switch → Option String
  | seed => some "<SEED>"
  | _ => none

/-- The option as it is typed. -/
def literal (s : Switch) : String := "--" ++ s.name

/-- The option with its value, as messages show it. -/
def styled (s : Switch) : Styled :=
  (.literal, s.literal) :: (s.placeholder.map fun p => (Style.plain, " " ++ p)).toList

/-- The option with its value, as messages spell it. -/
def spelling (s : Switch) : String := s.literal ++ ((s.placeholder.map (" " ++ ·)).getD "")

/-- The option of a given name; names are not abbreviated. -/
def ofName? (text : Bytes) : Option Switch := all.find? fun s => Utf8.encode s.name = text

/-- How similar a name must be to an option for the option to be suggested. -/
def suggestionThreshold : Float := 0.7

/-- The option that an unknown name was perhaps meant to be: the most similar one, and of equally
similar ones the last. -/
def suggestion? (unknown : String) : Option Switch :=
  let scored := all.map fun s => (s, Similarity.jaro unknown.toList s.name.toList)
  let best := (scored.filter fun (_, score) => score > suggestionThreshold).foldl
    (fun best (s, score) =>
      match best with
      | some (_, top) => if score < top then best else some (s, score)
      | none => some (s, score))
    none
  best.map (·.1)

end Switch

/-- What a command line consists of. -/
inductive Argument
  /-- The path of the input. -/
  | path
  | switch (s : Switch)
  deriving Repr, DecidableEq

namespace Argument

/-- The argument as messages spell it. -/
def spelling : Argument → String
  | path => "<PATH>"
  | switch s => s.spelling

/-- The argument as usage lines show it. -/
def styled : Argument → Styled
  | path => .ofString .plain path.spelling
  | switch s => s.styled

/-- The arguments that describe a run, as one usage line has them: any of them may stand there. -/
def ofRun : String := "<PATH|" ++ Switch.seed.spelling ++ "|" ++ Switch.dryRun.spelling ++ ">"

end Argument

/-- What is wrong with a command line. In all cases `given` holds the arguments met so far. -/
inductive UsageError
  /-- An argument that needs a value has none, or an empty one where that is none. -/
  | missingValue (argument : Argument)
  /-- A seed is no decimal word. -/
  | invalidSeed (value : String) (fault : Decimal.Fault)
  /-- A seed is no text. -/
  | seedNotText
  /-- An option is given twice. -/
  | repeated (s : Switch)
  /-- A value is attached to an option that takes none. -/
  | unexpectedValue (value : Bytes) (s : Switch) (given : List Argument)
  /-- There is no option of this name. -/
  | unknownName (name : Bytes) (given : List Argument)
  /-- There is no option of this letter. -/
  | unknownLetter (letter : String)
  /-- There is an operand too many. -/
  | extraOperand (value : Bytes)
  /-- The path is missing. -/
  | missingPath (given : List Argument)
  deriving Repr, DecidableEq

namespace UsageError

/-- A usage line: the name of the program and what is behind it. -/
def usage (behind : Styled) : Styled :=
  [(.header, "Usage:"), (.plain, " "), (.literal, "oob-harness")] ++ behind

/-- The general usage line. -/
def generalUsage : Styled := usage (.ofString .plain " [OPTIONS] <PATH>")

/-- The usage line that repeats the given options. -/
def usageOf (given : List Argument) : Styled :=
  let shown := given.filter (· ≠ .path) ++ [Argument.path]
  usage (shown.flatMap fun a => (.plain, " ") :: a.styled)

/-- The usage line for the given arguments; the general one if there are none. -/
def usageFor (given : List Argument) : Styled :=
  if given = [] then generalUsage else usageOf given

/-- The usage line for an option where a run has been described already: the option, if it is none
of a run, and a run. -/
def usageWithRun (s : Switch) : Styled :=
  usage <|
    (if s ∈ [.help, .version] then (.plain, " ") :: s.styled else []) ++
      [(.plain, " " ++ Argument.ofRun)]

/-- The given arguments together with an option, which comes last if it is not among them. -/
def including (given : List Argument) (s : Switch) : List Argument :=
  if .switch s ∈ given then given else given ++ [.switch s]

/-- The tip to put an argument behind the separator. -/
def separatorTip (argument : String) : Styled :=
  [(.plain, "to pass '"), (.invalid, argument), (.plain, "' as a value, use '"),
    (.valid, "-- " ++ argument), (.plain, "'")]

/-- A message of one headline, a tip if there is one, and a usage line if there is one. -/
def compose (headline : Styled) (tip usage : Option Styled) : Styled :=
  [(.failure, "error:"), (.plain, " ")] ++ headline ++
    (tip.map ([(.plain, "\n\n  "), (.valid, "tip:"), (.plain, " ")] ++ ·)).getD [] ++
    (usage.map ((.plain, "\n\n") :: ·)).getD [] ++
    [(.plain, "\n\nFor more information, try '"), (.literal, "--help"), (.plain, "'.\n")]

/-- A headline that quotes what is wrong. -/
def quoting (before wrong behind : String) : Styled :=
  [(.plain, before ++ "'"), (.invalid, wrong), (.plain, "'" ++ behind)]

/-- A headline that quotes what is wrong and the option it belongs to. -/
def quotingFor (before wrong : String) (s : Switch) (behind : String) : Styled :=
  quoting before wrong " for '" ++ [(.literal, s.spelling), (.plain, "'" ++ behind)]

/-- The message of an error. -/
def message : UsageError → Styled
  | missingValue argument =>
    compose (quoting "a value is required for " argument.spelling " but none was supplied")
      none none
  | invalidSeed value fault =>
    compose (quotingFor "invalid value " value .seed (": " ++ fault.message)) none none
  | seedNotText =>
    compose (.ofString .plain "invalid UTF-8 was detected in one or more arguments") none
      (some generalUsage)
  | repeated s =>
    compose (quoting "the argument " s.spelling " cannot be used multiple times") none
      (some generalUsage)
  | unexpectedValue value s given =>
    compose
      (quotingFor "unexpected value " (Utf8.lossy value) s " found; no more were expected") none
      (some (if given = [] then usageOf [.switch s] else usageWithRun s))
  | unknownName name given =>
    let argument := "--" ++ Utf8.lossy name
    let headline := quoting "unexpected argument " argument " found"
    match Switch.suggestion? (Utf8.lossy name) with
    | some s =>
      compose headline
        (some [(.plain, "a similar argument exists: '"), (.valid, s.literal), (.plain, "'")])
        (some (usageOf (including given s)))
    | none => compose headline (some (separatorTip argument)) (some (usageFor given))
  | unknownLetter letter =>
    let argument := "-" ++ letter
    compose (quoting "unexpected argument " argument " found") (some (separatorTip argument))
      (some generalUsage)
  | extraOperand value =>
    compose (quoting "unexpected argument " (Utf8.lossy value) " found") none (some generalUsage)
  | missingPath given =>
    compose
      [(.plain, "the following required arguments were not provided:\n  "),
        (.valid, Argument.path.spelling)]
      none (some (usageOf given))

end UsageError

end OverrunHarness
