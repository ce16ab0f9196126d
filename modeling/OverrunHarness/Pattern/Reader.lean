import OverrunHarness.Pattern.Brackets
import OverrunHarness.Text.CharacterClass
/-!
# Reading patterns

From the text of a pattern to its branches, or to nothing if the text is no pattern.

Design points:

* The reader takes **one part at a time** (`Reading.step`). Groups that are open wait on a stack;
  an operator that repeats takes the part in front of it. Every step takes at least one character;
  one that took none would end the reading.
* Nothing can be repeated at the beginning of a sequence or behind a change of modes.
* Of the names of groups, only that they are different matters.
-/

namespace OverrunHarness

namespace Pattern

/-- The letters of the modes. -/
def modeLetters : List Char := ['i', 'm', 's', 'U', 'u', 'R', 'x']

/-- Reads a change of modes: letters, and a dash in front of those that are turned off. -/
def ModeChange.ofLetters? (letters : List Char) : Option ModeChange :=
  if letters.Nodup ∧ letters.getLast? ≠ some '-' ∧ letters.all (· ∈ '-' :: modeLetters) then
    let setting (c : Char) : Option Bool :=
      if c ∉ letters then none else some (c ∈ letters.takeWhile (· ≠ '-'))
    some ⟨setting 'i', setting 'u', setting 'x'⟩
  else none

/-- A group of which the closing parenthesis has not been seen, and what was read before it. -/
structure OpenGroup where
  change : ModeChange
  /-- Whether the pattern was verbose in front of the group. -/
  verbose : Bool
  /-- The branches in front of the one that the group is in, last one first. -/
  branches : List (List Node)
  /-- The sequence that the group is in, last node first. -/
  sequence : List Node

/-- How far a pattern has been read. -/
structure Reading where
  /-- The groups around, innermost first. -/
  groups : List OpenGroup := []
  /-- The branches that are complete, last one first. -/
  branches : List (List Node) := []
  /-- The sequence that is being read, last node first. -/
  sequence : List Node := []
  verbose : Bool := false
  /-- The names given to groups. -/
  names : List (List Char) := []

namespace Reading

/-- Adds a node. -/
def add (r : Reading) (n : Node) : Reading := { r with sequence := n :: r.sequence }

/-- The branches read so far, in order. -/
def allBranches (r : Reading) : Branches := (r.sequence.reverse :: r.branches).reverse

/-- Opens a group. -/
def openGroup (r : Reading) (change : ModeChange) : Reading :=
  { r with
    groups := ⟨change, r.verbose, r.branches, r.sequence⟩ :: r.groups
    branches := []
    sequence := []
    verbose := change.verbose.getD r.verbose }

/-- Closes the innermost group. -/
def closeGroup (r : Reading) : Option Reading :=
  match r.groups with
  | [] => none
  | g :: groups =>
    some { r with
      groups
      branches := g.branches
      sequence := .group g.change r.allBranches :: g.sequence
      verbose := g.verbose }

/-- Repeats the last node. -/
def repeated (r : Reading) (never : Bool) : Option Reading :=
  match r.sequence with
  | [] | .modes _ :: _ => none
  | n :: before => some { r with sequence := .repeated never n :: before }

/-- Reads the name of a group and opens it, from behind the opening angle. -/
def named (r : Reading) (cs : List Char) : Option (Reading × List Char) :=
  let name := cs.takeWhile (· ≠ '>')
  let beginsWell := match name with
    | [] => false
    | c :: _ => c == '_' || isAlphabetic c
  if beginsWell && name.all (fun c => c ∈ ['_', '.', '[', ']'] || isAlphanumeric c) &&
      !r.names.contains name then
    match cs.dropWhile (· ≠ '>') with
    | [] => none
    | _ :: rest => some ({ r with names := name :: r.names }.openGroup {}, rest)
  else none

/-- Reads what is behind a parenthesis that opens a group or a change of modes. -/
def parenthesis (r : Reading) (cs : List Char) : Option (Reading × List Char) :=
  match skip r.verbose cs with
  | '?' :: 'P' :: '<' :: rest | '?' :: '<' :: rest => r.named rest
  | '?' :: rest =>
    let isEnd (c : Char) : Bool := c ∈ [':', ')']
    let letters := rest.takeWhile (!isEnd ·)
    (ModeChange.ofLetters? letters).bind fun change =>
      match rest.dropWhile (!isEnd ·) with
      | [] => none
      | c :: rest =>
        if c = ':' then some (r.openGroup change, rest)
        else if letters = [] then none
        else some ({ r.add (.modes change) with verbose := change.verbose.getD r.verbose }, rest)
  | rest => some (r.openGroup {}, rest)

/-- Counts are below this bound. -/
def countBound : Nat := 0x100000000

/-- Reads a count: digits, with blanks around them. -/
def count (verbose : Bool) (cs : List Char) : Option Nat × List Char :=
  let (digits, rest) := takeWhilePassing verbose (·.isDigit) (cs.dropWhile isBlank)
  let n := digits.foldl (fun n c => 10 * n + (c.toNat - '0'.toNat)) 0
  (if digits = [] ∨ countBound ≤ n then none else some n,
    (takeWhilePassing verbose isBlank rest).2)

/-- Reads a repetition between braces, from behind the opening one. -/
def counted (r : Reading) (cs : List Char) : Option (Reading × List Char) :=
  let (low, rest) := count r.verbose (skip r.verbose cs)
  let bounds : Option (Nat × Option Nat × List Char) :=
    low.bind fun low =>
      match rest with
      | ',' :: rest =>
        match skip r.verbose rest with
        | '\x7d' :: rest => some (low, none, '\x7d' :: rest)
        | rest =>
          let (high, rest) := count r.verbose rest
          high.bind fun high => if low ≤ high then some (low, some high, rest) else none
      | rest => some (low, some low, rest)
  bounds.bind fun (_, high, rest) =>
    match rest with
    | '\x7d' :: rest =>
      let behind := match skip r.verbose rest with
        | '?' :: rest => rest
        | rest => rest
      (r.repeated (high = some 0)).map fun r => (r, behind)
    | _ => none

/-- Reads the next part. -/
def step (r : Reading) : List Char → Option (Reading × List Char)
  | [] => none
  | c :: cs =>
    match c with
    | '(' => r.parenthesis cs
    | ')' => r.closeGroup.map fun r => (r, cs)
    | '|' => some ({ r with branches := r.sequence.reverse :: r.branches, sequence := [] }, cs)
    | '[' => (bracketSet r.verbose cs).map fun (s, rest) => (r.add (.set s), rest)
    | '?' | '*' | '+' =>
      let behind := match cs with
        | '?' :: rest => rest
        | _ => cs
      (r.repeated false).map fun r => (r, behind)
    | '\x7b' => r.counted cs
    | '\\' => (escaped r.verbose cs).map fun (a, rest) => (r.add (.atom a), rest)
    | '.' => some (r.add .any, cs)
    | '^' | '$' => some (r.add (.atom .edge), cs)
    | c => some (r.add (.atom (.literal ⟨c, false⟩)), cs)

/-- Reads to the end. -/
def toEnd (r : Reading) (cs : List Char) : Option Reading :=
  match skip r.verbose cs with
  | [] => some r
  | next =>
    match r.step next with
    | none => none
    | some (r, rest) => if rest.length < cs.length then toEnd r rest else none
termination_by cs.length

end Reading

/-- Reads a pattern. -/
def read? (cs : List Char) : Option Branches :=
  (Reading.toEnd {} cs).bind fun r => if r.groups.isEmpty then some r.allBranches else none

end Pattern

end OverrunHarness
