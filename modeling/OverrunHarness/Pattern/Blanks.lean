import OverrunHarness.Text.CharacterClass
/-!
# Blanks in patterns

A verbose pattern may have blanks and comments between its parts. A comment runs from a number sign
to the end of the line. Every function here is told whether the pattern is verbose; if it is not,
nothing is skipped.
-/

namespace OverrunHarness

namespace Pattern

/-- A text without the blanks and comments at its beginning, which may lie in a comment. -/
def skipBlanks : (inComment : Bool) → List Char → List Char
  | _, [] => []
  | true, c :: cs => skipBlanks (c ≠ '\n') cs
  | false, c :: cs =>
    if isBlank c then skipBlanks false cs
    else if c = '#' then skipBlanks true cs
    else c :: cs

/-- What comes next in a pattern. -/
def skip (verbose : Bool) (cs : List Char) : List Char :=
  if verbose then skipBlanks false cs else cs

theorem length_skipBlanks_le (inComment : Bool) (cs : List Char) :
    (skipBlanks inComment cs).length ≤ cs.length := by
  fun_induction skipBlanks inComment cs <;> simp_all <;> omega

theorem length_skip_le (verbose : Bool) (cs : List Char) :
    (skip verbose cs).length ≤ cs.length := by
  cases verbose
  · simp [skip]
  · exact length_skipBlanks_le false cs

/-- The characters at the beginning that pass a test, and what comes next behind them. -/
def takeWhilePassing (verbose : Bool) (test : Char → Bool) : List Char → List Char × List Char
  | [] => ([], [])
  | c :: cs =>
    if test c then
      let (taken, rest) := takeWhilePassing verbose test (skip verbose cs)
      (c :: taken, rest)
    else ([], c :: cs)
termination_by cs => cs.length
decreasing_by
  have := length_skip_le verbose cs
  simp only [List.length_cons]
  omega

/-- The character that a dash is looked at together with: the next one that is neither a blank nor
the first number sign. -/
def behindDash (verbose : Bool) (cs : List Char) : Option Char :=
  if verbose then
    match cs.filter fun c => !isBlank c with
    | '#' :: c :: _ => some c
    | c :: _ => some c
    | [] => none
  else cs.head?

end Pattern

end OverrunHarness
