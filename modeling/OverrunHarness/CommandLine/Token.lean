import OverrunHarness.Text.Utf8
/-!
# Tokens of a command line

What an argument looks like, before it is known what is expected in its place.
-/

namespace OverrunHarness

/-- The byte that options begin with. -/
def dash : UInt8 := 0x2D

/-- The byte between an option and the value attached to it. -/
def equalsSign : UInt8 := 0x3D

/-- The look of an argument. -/
inductive Token
  /-- Two dashes: everything behind it is an operand. -/
  | separator
  /-- Two dashes and a name, perhaps with an equals sign and a value. -/
  | long (name : Bytes) (value : Option Bytes)
  /-- One dash and letters. -/
  | short (first : UInt8) (rest : Bytes)
  /-- Anything else, a lone dash included. -/
  | plain
  deriving Repr, DecidableEq

/-- The value behind the first equals sign. -/
def attachedValue (text : Bytes) : Option Bytes :=
  match text.dropWhile (· ≠ equalsSign) with
  | [] => none
  | _ :: value => some value

/-- The look of an argument. -/
def Token.ofBytes : Bytes → Token
  | d :: e :: rest =>
    if d ≠ dash then .plain
    else if e ≠ dash then .short e rest
    else if rest = [] then .separator
    else .long (rest.takeWhile (· ≠ equalsSign)) (attachedValue rest)
  | _ => .plain

end OverrunHarness
