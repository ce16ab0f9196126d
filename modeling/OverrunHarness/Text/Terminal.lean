import OverrunHarness.Text.Utf8
/-!
# Terminal sequences

Text that is not shown on a terminal is freed of what only a terminal understands: escape sequences
and control characters. Blanks among the control characters (tab, line feed, form feed and carriage
return) are kept.

Design points:

* A text is followed **one character at a time** (`State.step`). What has been begun and not ended
  is a `Pending`; each character moves it (`Pending.next`).
* A blank control character within an unfinished sequence is kept and **suspends** the sequence:
  from there on text is kept as if there were none, and the next control character takes the
  sequence up again. A character beyond ASCII ends a suspended sequence for good.
* Strings and data for devices run up to a byte `0x9C`. Terminals see bytes, so this one also
  counts within the encoding of a character (`Pending.next`).
-/

namespace OverrunHarness

namespace Terminal

/-- What the characters so far have begun. -/
inductive Pending
  /-- Nothing: this is text. -/
  | nothing
  /-- A sequence of which only the escape character has been seen. -/
  | escape
  /-- A sequence with intermediate characters behind the escape. -/
  | intermediate
  /-- A control sequence: an escape, an opening bracket and parameters. -/
  | control
  /-- A command for the operating system. -/
  | command
  /-- Data for a device, nothing of which has been seen. -/
  | device
  /-- Data for a device, up to somewhere in its parameters. -/
  | deviceParameters
  /-- Data for a device, up to somewhere in its intermediate characters. -/
  | deviceIntermediate
  /-- A string of any other kind, or what data for a device carries behind its introduction. -/
  | string
  deriving Repr, DecidableEq

/-- The byte that ends strings. -/
def stringEnd : UInt8 := 0x9C

namespace Pending

/-- What follows an escape. -/
def afterEscape (c : Char) : Pending :=
  if 0x20 ≤ c.toNat ∧ c.toNat ≤ 0x2F then intermediate
  else if c = '[' then control
  else if c = ']' then command
  else if c = 'P' then device
  else if c ∈ ['X', '^', '_'] then string
  else if 0x30 ≤ c.toNat ∧ c.toNat ≤ 0x7E then nothing
  else escape

/-- What follows a character that introduces data for a device. A parameter of a private kind comes
first or not at all, and none comes behind an intermediate character; otherwise the data has no
sense and is a string to be skipped. -/
def afterDevice (s : Pending) (c : Char) : Pending :=
  let n := c.toNat
  if 0x20 ≤ n ∧ n ≤ 0x2F then deviceIntermediate
  else if 0x30 ≤ n ∧ n ≤ 0x3F then
    if s = device ∨ (s = deviceParameters ∧ n < 0x3C) then deviceParameters else string
  else if 0x40 ≤ n ∧ n ≤ 0x7E then string
  else s

/-- What is pending behind a character. -/
def next (s : Pending) (c : Char) : Pending :=
  let n := c.toNat
  if n = 0x1B then escape
  else if n = 0x18 ∨ n = 0x1A then nothing
  else
    match s with
    | nothing => nothing
    | escape => afterEscape c
    | intermediate => if 0x30 ≤ n ∧ n ≤ 0x7E then nothing else s
    | control => if 0x40 ≤ n ∧ n ≤ 0x7E then nothing else s
    | command => if n = 0x07 then nothing else s
    | device | deviceParameters | deviceIntermediate => s.afterDevice c
    | string => if stringEnd ∈ String.utf8EncodeChar c then nothing else s

/-- Whether a blank control character within it is kept. -/
def keepsBlanks (s : Pending) : Bool := s ∈ [escape, intermediate, control]

end Pending

/-- The control characters that are blanks. -/
def isBlankControl (c : Char) : Bool := c ∈ ['\t', '\n', '\x0c', '\r']

/-- Whether a character is text: a blank or no control character. -/
def isText (c : Char) : Bool := isBlankControl c || (0x20 ≤ c.toNat && c.toNat ≠ 0x7F)

/-- How far a text has been followed. -/
structure State where
  pending : Pending
  /-- Whether what is pending is suspended. -/
  suspended : Bool
  deriving Repr, DecidableEq

/-- The beginning of a text. -/
def State.start : State := ⟨.nothing, false⟩

/-- Follows a character: the state behind it and whether the character is kept. -/
def State.step (s : State) (c : Char) : State × Bool :=
  if (s.suspended ∨ s.pending = .nothing) ∧ isText c then
    (if c.toNat < 0x80 then s else .start, true)
  else
    let kept := isBlankControl c && s.pending.keepsBlanks
    (⟨s.pending.next c, kept⟩, kept)

/-- The characters of a text that are kept. -/
def stripFrom : State → List Char → List Char
  | _, [] => []
  | s, c :: cs =>
    let (t, kept) := s.step c
    if kept then c :: stripFrom t cs else stripFrom t cs

/-- A text without its sequences. -/
def strip (s : String) : String := String.ofList (stripFrom .start s.toList)

end Terminal

end OverrunHarness
