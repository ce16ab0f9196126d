import OverrunHarness.Pattern.Escape
/-!
# Sets between brackets

Reading a set of characters: literals, ranges, classes, sets within the set, and operations on
sets. Operations are taken from left to right.

Design points:

* A set that is being read is an `OpenSet`; the sets around it wait on a stack. Every step takes at
  least one character (`setStep`); one that took none would end the reading.
* A closing bracket right behind the opening one stands for itself, and so do dashes there.
-/

namespace OverrunHarness

namespace Pattern

/-- A set of which the closing bracket has not been seen. -/
structure OpenSet where
  negated : Bool
  /-- The last operator and what stands on its left, if there was one. -/
  left : Option (SetOperator × CharSet) := none
  /-- What has been read since, last part first. -/
  parts : List CharSet := []

namespace OpenSet

/-- What has been read so far. -/
def content (o : OpenSet) : CharSet :=
  match o.left with
  | none => .union o.parts.reverse
  | some (operator, left) => .operation operator left (.union o.parts.reverse)

/-- Adds a part. -/
def add (o : OpenSet) (s : CharSet) : OpenSet := { o with parts := s :: o.parts }

/-- Meets an operator. -/
def operate (o : OpenSet) (operator : SetOperator) : OpenSet :=
  { o with left := some (operator, o.content), parts := [] }

/-- Meets the closing bracket. -/
def close (o : OpenSet) : CharSet := .bracketed o.negated o.content

end OpenSet

/-- The names of classes of ASCII characters. -/
def classNames : List String :=
  ["alnum", "alpha", "ascii", "blank", "cntrl", "digit", "graph", "lower", "print", "punct",
    "space", "upper", "word", "xdigit"]

/-- A class given by name, from behind the bracket and the colon that open it. -/
def namedClass (cs : List Char) : Option (CharSet × List Char) :=
  let negated := cs.head? = some '^'
  let cs := if negated then cs.tail else cs
  match cs.dropWhile (· ≠ ':') with
  | ':' :: ']' :: rest =>
    if String.ofList (cs.takeWhile (· ≠ ':')) ∈ classNames then some (.named negated, rest)
    else none
  | _ => none

/-- Opens a set, from behind its opening bracket. -/
def openSet (verbose : Bool) (cs : List Char) : Option (OpenSet × List Char) :=
  let (negated, cs) := match skip verbose cs with
    | '^' :: rest => (true, skip verbose rest)
    | rest => (false, rest)
  let (dashes, cs) := takeWhilePassing verbose (· == '-') cs
  let (first, cs) := match dashes, cs with
    | [], ']' :: rest => ([']'], skip verbose rest)
    | _, _ => (dashes, cs)
  if cs = [] then none
  else some (⟨negated, none, first.map fun c => .literal ⟨c, false⟩⟩, cs)

/-- Reads a single character of a set, or an escape. -/
def setItem (verbose : Bool) : List Char → Option (Atom × List Char)
  | [] => none
  | '\\' :: cs => escaped verbose cs
  | c :: cs => some (.literal ⟨c, false⟩, cs)

/-- Reads a character, a class or a range. A dash is the sign of a range unless a closing bracket
or another dash follows. -/
def setRange (verbose : Bool) (cs : List Char) : Option (CharSet × List Char) :=
  (setItem verbose cs).bind fun (low, rest) =>
    match skip verbose rest with
    | [] => none
    | next =>
      let isRange := next.head? = some '-' ∧ behindDash verbose next.tail ∉ [some ']', some '-']
      if isRange then
        (setItem verbose (skip verbose next.tail)).bind fun (high, rest) =>
          match low, high with
          | .literal l, .literal h => if l.char ≤ h.char then some (.range l h, rest) else none
          | _, _ => none
      else
        match low with
        | .literal l => some (.literal l, next)
        | .category negated => some (.category negated, next)
        | _ => none

/-- How far sets have been read. -/
inductive SetReading
  | finished (s : CharSet)
  /-- A set is open, and those around it wait, innermost first. -/
  | inside (inner : OpenSet) (outer : List OpenSet)

/-- Reads the next part of a set, given the set that is open and those around it. -/
def setStep (verbose : Bool) (inner : OpenSet) (outer : List OpenSet) :
    List Char → Option (SetReading × List Char)
  | [] => none
  | '[' :: rest =>
    let class? := match rest with
      | ':' :: rest => namedClass rest
      | _ => none
    match class? with
    | some (s, rest) => some (.inside (inner.add s) outer, rest)
    | none => (openSet verbose rest).map fun (o, rest) => (.inside o (inner :: outer), rest)
  | ']' :: rest =>
    match outer with
    | [] => some (.finished inner.close, rest)
    | o :: outer => some (.inside (o.add inner.close) outer, rest)
  | '&' :: '&' :: rest => some (.inside (inner.operate .intersection) outer, rest)
  | '-' :: '-' :: rest => some (.inside (inner.operate .difference) outer, rest)
  | '~' :: '~' :: rest => some (.inside (inner.operate .symmetricDifference) outer, rest)
  | cs => (setRange verbose cs).map fun (s, rest) => (.inside (inner.add s) outer, rest)

/-- Reads a set to its end. -/
def readSet (verbose : Bool) (inner : OpenSet) (outer : List OpenSet) (cs : List Char) :
    Option (CharSet × List Char) :=
  match setStep verbose inner outer (skip verbose cs) with
  | none => none
  | some (.finished s, rest) => some (s, rest)
  | some (.inside inner outer, rest) =>
    if rest.length < cs.length then readSet verbose inner outer rest else none
termination_by cs.length

/-- Reads a set from behind its opening bracket. -/
def bracketSet (verbose : Bool) (cs : List Char) : Option (CharSet × List Char) :=
  (openSet verbose cs).bind fun (o, rest) => readSet verbose o [] rest

end Pattern

end OverrunHarness
