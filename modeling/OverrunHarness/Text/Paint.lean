/-!
# Paint

How a part of a text is set off on a terminal: a sequence for each paint in front of the part, and
one behind it that takes them all back.
-/

namespace OverrunHarness

/-- A way to set off a part of a text. -/
inductive Paint
  | bold
  /-- Stepping back. -/
  | dimmed
  | italic
  | underlined
  | red
  | green
  | yellow
  | blue
  | magenta
  deriving Repr, DecidableEq

namespace Paint

/-- The number that a terminal knows a paint by. -/
def code : Paint → String
  | bold => "1"
  | dimmed => "2"
  | italic => "3"
  | underlined => "4"
  | red => "31"
  | green => "32"
  | yellow => "33"
  | blue => "34"
  | magenta => "35"

/-- A part of a text with paints put on it, the first one first. Without paints it stays as it
is. -/
def apply (paints : List Paint) (part : String) : String :=
  if paints = [] then part
  else String.join (paints.map fun p => "\x1b[" ++ p.code ++ "m") ++ part ++ "\x1b[0m"

@[simp] theorem apply_nil (part : String) : apply [] part = part := rfl

end Paint

end OverrunHarness
