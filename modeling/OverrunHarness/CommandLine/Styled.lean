import OverrunHarness.Text.Paint
import OverrunHarness.Text.Terminal
/-!
# Styled text

What the command line says about itself is composed of parts, each with a style. For a terminal
the styles are painted; for anything else the painted text is stripped of all sequences again.

Stripping comes last on purpose: a sequence that an argument begins and does not end takes what
follows with it, up to where the next style is put on or taken back.
-/

namespace OverrunHarness

/-- What a part of a message is. -/
inductive Style
  /-- Running text, and what stands for a value. -/
  | plain
  /-- The title of a section. -/
  | header
  /-- What is to be typed as it stands. -/
  | literal
  /-- The announcement of an error. -/
  | failure
  /-- What would be right. -/
  | valid
  /-- What is wrong. -/
  | invalid
  deriving Repr, DecidableEq

/-- The paints of a style. -/
def Style.paints : Style → List Paint
  | plain => []
  | header => [.bold, .underlined]
  | literal => [.bold]
  | failure => [.bold, .red]
  | valid => [.green]
  | invalid => [.yellow]

/-- A text whose parts have styles. -/
abbrev Styled := List (Style × String)

namespace Styled

/-- A text in a single style. -/
def ofString (style : Style) (text : String) : Styled := [(style, text)]

/-- The text with its styles painted. -/
def painted (s : Styled) : String :=
  String.join (s.map fun (style, text) => Paint.apply style.paints text)

/-- The text as it is put out, with or without colours. -/
def render (s : Styled) (colours : Bool) : String :=
  if colours then s.painted else Terminal.strip s.painted

end Styled

end OverrunHarness
