import OverrunHarness.Pattern.Reader
/-!
# Patterns that can be used

A pattern is of use if an automaton can be made of it that reads text. What the automaton knows of
characters beyond ASCII is their order and nothing else: not which of them are letters, digits or
blanks, and not which differ in case only. A pattern about bytes must not match a part of
a character.

Where case does not matter, a set must hold the other case of whatever it holds. Without a table
that is only known of the set of nothing and of the set of everything, and of what is made of these
two. A set that is given by its characters does not count, even if it names all of them, except
where that adds nothing to a set that is known to hold everything.

A repetition of zero times leaves nothing of what it repeats, and so what it repeats may look for
the boundaries of words, which the automaton cannot find beyond ASCII. Everything else in it is
held to the same rules.
-/

namespace OverrunHarness

namespace Pattern

/-- The modes that decide about the use of what follows. -/
structure Modes where
  ignoreCase : Bool := false
  unicode : Bool := true
  deriving Repr, DecidableEq

/-- The modes behind a change. -/
def Modes.apply (m : Modes) (change : ModeChange) : Modes :=
  ⟨change.ignoreCase.getD m.ignoreCase, change.unicode.getD m.unicode⟩

/-- Whether a class of characters can be used. Beyond ASCII there is no table for it, and what is
outside a class of bytes may be a part of a character. -/
def Modes.allowsCategory (m : Modes) (negated : Bool) : Bool := !m.unicode && !negated

/-- Whether a character can be used in a set. A set of bytes takes characters of a single byte. -/
def Modes.allowsMember (m : Modes) (l : Literal) : Bool := m.unicode || l.char.toNat < 0x80

/-- Whether an atom can be used. -/
def Modes.allowsAtom (m : Modes) (never : Bool) : Atom → Bool
  | .literal l =>
    if m.unicode then !m.ignoreCase else !l.isByte || l.char.toNat < 0x80
  | .category negated => m.allowsCategory negated
  | .edge => true
  | .boundary => never || !m.unicode

mutual

/-- Whether a set can be used, if case matters or can be told by a table. -/
def Modes.allowsContent (m : Modes) : CharSet → Bool
  | .literal l => m.allowsMember l
  | .range low high => m.allowsMember low && m.allowsMember high
  | .named negated => m.unicode || !negated
  | .category negated => m.allowsCategory negated
  | .union parts => m.allowsContents parts
  | .operation _ left right => m.allowsContent left && m.allowsContent right
  | .bracketed negated inner => m.allowsContent inner && (m.unicode || !negated)

/-- Whether all of some sets can be used, if case matters or can be told by a table. -/
def Modes.allowsContents (m : Modes) : List CharSet → Bool
  | [] => true
  | s :: rest => m.allowsContent s && m.allowsContents rest

end

/-- Whether a range is that of all characters. -/
def isWholeRange (low high : Literal) : Bool :=
  low.char.toNat = 0 && high.char.toNat = 0x10ffff

mutual

/-- Adds a set to the set of everything (`all`) or of nothing, and tells which of these two results;
nothing is told if it may be neither. -/
def CharSet.addedTo? (all : Bool) : CharSet → Option Bool
  | .literal _ | .named _ | .category _ => none
  | .range low high => if all && isWholeRange low high then some true else none
  | .union parts => allAddedTo? all parts
  | .operation operator left right =>
    (left.addedTo? false).bind fun l =>
      (right.addedTo? false).map fun r => all || operator.holds l r
  | .bracketed negated inner => (inner.addedTo? false).map fun i => all || i != negated

/-- Adds sets, one after the other, to the set of everything (`all`) or of nothing. -/
def allAddedTo? (all : Bool) : List CharSet → Option Bool
  | [] => some all
  | s :: rest => (s.addedTo? all).bind fun all => allAddedTo? all rest

end

/-- Whether a set can be used. -/
def Modes.allowsSet (m : Modes) (s : CharSet) : Bool :=
  if m.unicode && m.ignoreCase then (s.addedTo? false).isSome else m.allowsContent s

mutual

/-- The modes behind a node, if it can be used. -/
def Modes.behindNode (m : Modes) (never : Bool) : Node → Option Modes
  | .atom a => if m.allowsAtom never a then some m else none
  | .any => if m.unicode then some m else none
  | .set s => if m.allowsSet s then some m else none
  | .modes change => some (m.apply change)
  | .repeated zero n => m.behindNode (never || zero) n
  | .group change branches =>
    ((m.apply change).behindBranches never branches).map fun _ => m

/-- The modes behind a sequence, if it can be used. -/
def Modes.behindSequence (m : Modes) (never : Bool) : List Node → Option Modes
  | [] => some m
  | n :: rest => (m.behindNode never n).bind fun m => m.behindSequence never rest

/-- The modes behind the branches of a choice, if they can be used. A change in one branch holds in
those behind it, too. -/
def Modes.behindBranches (m : Modes) (never : Bool) : List (List Node) → Option Modes
  | [] => some m
  | b :: rest => (m.behindSequence never b).bind fun m => m.behindBranches never rest

end

/-- Patterns may be nested this deep. -/
def depthLimit : Nat := 250

/-- Whether a text is a pattern that can be used. -/
def isUsable (cs : List Char) : Bool :=
  match read? cs with
  | none => false
  | some branches =>
    branches.depth ≤ depthLimit && (Modes.behindBranches {} false branches).isSome

end Pattern

end OverrunHarness
