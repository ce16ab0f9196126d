/-!
# Patterns

The syntax of patterns: what a regular expression consists of, as far as it decides whether the
expression can be used at all. What an expression matches does not matter here.

Design points:

* A sequence is a list of nodes, and a choice is a list of sequences: the expression `ab|c` has the
  branches `ab` and `c`. `Node.group` holds such branches.
* **Modes** change as a pattern is read: they hold from where they are set to the end of the group
  around them. A change is a node of its own (`Node.modes`) or opens a group.
* Nesting is measured as `depth`: sets, groups and repetitions add a level each, and so do choices
  and sequences that have more than one part.
-/

namespace OverrunHarness

namespace Pattern

/-- A character that stands for itself. -/
structure Literal where
  char : Char
  /-- Whether it is written as two hexadecimal digits and so could stand for a byte. -/
  isByte : Bool := false
  deriving Repr, DecidableEq

/-- What stands at a single place of a pattern. -/
inductive Atom
  | literal (l : Literal)
  /-- A class of characters: digits, spaces or word characters, or all others. -/
  | category (negated : Bool)
  /-- The beginning or the end of a line or of the text. -/
  | edge
  /-- The beginning or the end of a word, or anything but. -/
  | boundary
  deriving Repr, DecidableEq

/-- What two sets can be combined to. -/
inductive SetOperator
  | intersection
  | difference
  | symmetricDifference
  deriving Repr, DecidableEq

/-- Whether a character is in the combination of two sets, given whether it is in each of them. -/
def SetOperator.holds : SetOperator → Bool → Bool → Bool
  | .intersection, l, r => l && r
  | .difference, l, r => l && !r
  | .symmetricDifference, l, r => l != r

/-- A set of characters, as written between brackets. -/
inductive CharSet
  | literal (l : Literal)
  | range (low high : Literal)
  /-- A class of ASCII characters, given by name. -/
  | named (negated : Bool)
  | category (negated : Bool)
  | union (parts : List CharSet)
  | operation (operator : SetOperator) (left right : CharSet)
  | bracketed (negated : Bool) (inner : CharSet)

/-- What a pattern can be told about how to read the rest of it: for each mode the new setting, if
it is set at all. -/
structure ModeChange where
  /-- Case does not matter. -/
  ignoreCase : Option Bool := none
  /-- The pattern is about characters; otherwise it is about bytes. -/
  unicode : Option Bool := none
  /-- Blanks and comments are skipped. -/
  verbose : Option Bool := none
  deriving Repr, DecidableEq

/-- A part of a pattern. -/
inductive Node
  | atom (a : Atom)
  /-- Any character. -/
  | any
  | set (s : CharSet)
  | modes (change : ModeChange)
  /-- A repetition; `never` if it is one of zero times. -/
  | repeated (never : Bool) (n : Node)
  | group (change : ModeChange) (branches : List (List Node))

/-- The branches of a choice. -/
abbrev Branches := List (List Node)

/-- The level that having several parts adds. -/
def levelOf {α : Type} (parts : List α) : Nat := if 2 ≤ parts.length then 1 else 0

mutual

/-- How deep a set is nested. -/
def CharSet.depth : CharSet → Nat
  | .literal _ | .range _ _ | .named _ | .category _ => 0
  | .union parts => partsDepth parts + levelOf parts
  | .operation _ left right => max left.depth right.depth + 1
  | .bracketed _ inner => inner.depth + 1

/-- How deep the deepest of some sets is nested. -/
def partsDepth : List CharSet → Nat
  | [] => 0
  | s :: rest => max s.depth (partsDepth rest)

end

mutual

/-- How deep a node is nested. -/
def Node.depth : Node → Nat
  | .atom _ | .any | .modes _ => 0
  | .set s => s.depth
  | .repeated _ n => n.depth + 1
  | .group _ branches => branchesDepth branches + levelOf branches + 1

/-- How deep the deepest node of a sequence is nested. -/
def sequenceDepth : List Node → Nat
  | [] => 0
  | n :: rest => max n.depth (sequenceDepth rest)

/-- How deep the deepest of some sequences is nested. -/
def branchesDepth : List (List Node) → Nat
  | [] => 0
  | b :: rest => max (sequenceDepth b + levelOf b) (branchesDepth rest)

end

/-- How deep a whole pattern is nested. -/
def Branches.depth (branches : Branches) : Nat := branchesDepth branches + levelOf branches

end Pattern

end OverrunHarness
