import OverrunHarness.Event
import OverrunHarness.Text.Paint
/-!
# Log records

An event as a line of a log: time, level, target, message and fields. The level is set flush right
in five columns. A line is plain or coloured; the colours are terminal sequences around the parts
and change none of them.
-/

namespace OverrunHarness

/-- How the lines of a log are written. -/
inductive LogStyle
  | plain
  | coloured
  deriving Repr, DecidableEq

/-- A part of a line, set off if the style has colours. -/
def LogStyle.paint (style : LogStyle) (p : Paint) (part : String) : String :=
  match style with
  | plain => part
  | coloured => Paint.apply [p] part

@[simp] theorem LogStyle.paint_plain (p : Paint) (part : String) :
    LogStyle.plain.paint p part = part := rfl

/-- The paint of a level. -/
def Level.paint : Level → Paint
  | error => .red
  | warn => .yellow
  | info => .green
  | debug => .blue
  | trace => .magenta

/-- The name of a level, flush right in five columns. -/
def Level.column (l : Level) : String :=
  String.ofList (List.replicate (5 - l.name.length) ' ') ++ l.name

/-- A field of a record, with the space in front of it. -/
def LogStyle.field (style : LogStyle) (name value : String) : String :=
  " " ++ style.paint .italic name ++ style.paint .dimmed "=" ++ value

/-- An event as a line of a log. -/
def Event.record (e : Event) (style : LogStyle) (time : String) : String :=
  style.paint .dimmed time ++ " " ++ style.paint e.level.paint e.level.column ++ " " ++
    style.paint .dimmed e.target ++ style.paint .dimmed ":" ++ " " ++ e.message ++
    String.join (e.fields.map fun (name, value) => style.field name value) ++ "\n"

end OverrunHarness
