import OverrunHarness.CommandLine.UsageError
/-!
# Help and version

What the program says about itself. The description of `--seed` shows the seed of the environment
as it stands there; if that has several lines, they are set under one another.
-/

namespace OverrunHarness

namespace Help

/-- The name and the version of the program. -/
def version : Styled := .ofString .plain "oob-harness 0.1.0\n"

/-- The column at which the descriptions of options begin. -/
def descriptionColumn : Nat := 21

/-- A text whose lines behind the first begin at the column of descriptions. -/
def hang (text : String) : String :=
  String.ofList <| text.toList.flatMap fun c =>
    if c = '\n' then '\n' :: List.replicate descriptionColumn ' ' else [c]

/-- The description of `--seed`. -/
def seedDescription (environmentSeed : Option Bytes) : String :=
  hang <| "Seed for the random branch, for reproducible runs [env: OOB_HARNESS_SEED=" ++
    Utf8.lossy (environmentSeed.getD []) ++ "]"

/-- The titles and rows of the page. -/
def sections (environmentSeed : Option Bytes) : Styled :=
  [(.plain, "\n\n"), (.header, "Arguments:"), (.plain, "\n"),
    (.plain, "  <PATH>  File to load as raw bytes\n\n"),
    (.header, "Options:"), (.plain, "\n"),
    (.plain, "      "), (.literal, "--seed"),
    (.plain, " <SEED>  " ++ seedDescription environmentSeed ++ "\n"),
    (.plain, "      "), (.literal, "--dry-run"),
    (.plain, "      Print the planned out-of-bounds writes instead of performing them\n"),
    (.plain, "  "), (.literal, "-h"), (.plain, ", "), (.literal, "--help"),
    (.plain, "         Print help\n"),
    (.plain, "  "), (.literal, "-V"), (.plain, ", "), (.literal, "--version"),
    (.plain, "      Print version\n")]

/-- The help page. -/
def page (environmentSeed : Option Bytes) : Styled :=
  [(.plain, "A deliberately vulnerable file-driven target for fuzzers and "),
    (.plain, "memory-safety tooling\n\n")] ++
    UsageError.generalUsage ++ sections environmentSeed

end Help

end OverrunHarness
