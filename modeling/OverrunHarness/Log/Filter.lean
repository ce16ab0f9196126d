import OverrunHarness.Event
import OverrunHarness.Pattern.Support
import OverrunHarness.Text.Decimal
import OverrunHarness.Text.Real
/-!
# Log filters

A log filter is a text such as `warn,oob_harness::trigger=trace`: pieces between commas, each of
which sets how verbose the log is for some events. The piece that says the most about an event
decides for it.

A piece has up to three parts, `target[span]=level`:

* the **target** restricts it to events whose target begins that way;
* the bracketed part restricts it to a named span, to a field `{name}` or to a field with a
  value `{name=value}`. There are no spans in this program and a value can only be seen in
  a span, so of these only the field without a value ever enables an event (`Rule.field`);
* the **level** is a name in any case or a number from 0 (off) to 5; without it all levels are on.

A lone word is a level if it can be one and a target otherwise.

Design points:

* A filter with a piece that cannot be read is no filter at all (`FilterFault.unreadable`), and
  then nothing is logged. This is all that a value in brackets matters for: it has to be a value
  that a field could be compared with (`Selector.isValue`).
* Blanks around a piece are skipped when its shape is made out, but the parts are still cut from
  the text with its blanks, at the same positions. `Piece` keeps that text and a position in it.
* With a blank in front, such a position may lie **within a character**. There is nothing to cut
  then, and the reader does not answer at all (`FilterFault.torn`). Whoever asks it takes for
  granted that it does, be it by refusing the text. Reading goes from the left, piece by piece, and
  the first fault met ends it.
-/

namespace OverrunHarness

/-- How verbose a log is: events of at most this rank are shown; 0 shows none. -/
abbrev Verbosity := Nat

namespace Verbosity

/-- Every level is shown. -/
def all : Verbosity := Level.trace.rank

/-- The level names, from the quietest on. -/
def names : List String := ["off", "error", "warn", "info", "debug", "trace"]

/-- Reads a verbosity: a number from 0 to 5, or a name in any case. -/
def read? (s : List Char) : Option Verbosity :=
  match Decimal.read s with
  | .ok n => if n.toNat ≤ all then some n.toNat else none
  | .error _ => names.findIdx? (· == String.ofList (s.map Char.toLower))

end Verbosity

/-- What one piece of a filter says about events. -/
structure Rule where
  /-- The beginning of the targets that it is about; `none` for every target. -/
  target : Option (List Char)
  /-- The field that an event must have. -/
  field : Option (List Char)
  verbosity : Verbosity
  deriving Repr, DecidableEq

namespace Rule

/-- Whether the rule is about an event. The message counts as a field. -/
def appliesTo (r : Rule) (e : Event) : Bool :=
  (r.target.all fun t => t.isPrefixOf e.target.toList) &&
    (r.field.all fun f => f ∈ "message".toList :: e.fields.map fun p => p.1.toList)

/-- Whether `s` says at least as much about an event as `r` does, both being about it: the longer
target wins, then a field over none, then the later field in alphabetical order. -/
def supersededBy (r s : Rule) : Bool :=
  let size (t : Rule) := (t.target.map fun cs => cs.length + 1).getD 0
  if size r ≠ size s then size r < size s
  else
    match r.field, s.field with
    | none, _ => true
    | some _, none => false
    | some f, some g => !(g.lex f fun c d => c.toNat < d.toNat)

end Rule

/-- Why reading a text does not come to a filter. -/
inductive FilterFault
  /-- A piece is none; the reader refuses the text. -/
  | unreadable
  /-- A cut falls within a character; the reader breaks off without an answer. -/
  | torn
  deriving Repr, DecidableEq

/-! ### Reading a piece -/

/-- What a piece says about the fields of an event. -/
structure Selector where
  /-- The name of the field. -/
  name : List Char
  /-- Whether the field is to have a certain value. -/
  hasValue : Bool
  deriving Repr, DecidableEq

namespace Selector

/-- Whether a text says which value a field is to have: it is a number, or else a pattern. -/
def isValue (text : List Char) : Bool := Real.isNumber text || Pattern.isUsable text

/-- Reads a name, or a name and a value with an equals sign between them. What is behind another
equals sign does not count. -/
def read? (text : List Char) : Option Selector :=
  let name := text.takeWhile (· ≠ '=')
  match text.dropWhile (· ≠ '=') with
  | [] => if name = [] then none else some ⟨name, false⟩
  | _ :: rest => if isValue (rest.takeWhile (· ≠ '=')) then some ⟨name, true⟩ else none

end Selector

/-- A piece of a filter, from a position on. -/
structure Piece where
  /-- The piece as written. -/
  text : List Char
  /-- The position, in bytes. -/
  start : Nat
  /-- What is there in the piece without the blanks around it. -/
  rest : List Char

namespace Piece

/-- A piece as it stands between two commas. -/
def ofText (text : List Char) : Piece :=
  ⟨text, 0, ((text.dropWhile isBlank).reverse.dropWhile isBlank).reverse⟩

/-- Everything from here to the end, as written. -/
def written (p : Piece) : Except FilterFault (List Char) :=
  (Utf8.dropBytes? p.start p.text).getDM (.error .torn)

/-- What is written from here up to another position. -/
def writtenTo (p : Piece) (stop : Nat) : Except FilterFault (List Char) :=
  p.written.bind fun text => (Utf8.takeBytes? (stop - p.start) text).getDM (.error .torn)

/-- Looks for the first of the given characters: its position, the character, and the piece behind
it. -/
def find? (p : Piece) (marks : List Char) : Option (Nat × Char × Piece) :=
  let stop := p.start + Utf8.width (p.rest.takeWhile (· ∉ marks))
  match p.rest.dropWhile (· ∉ marks) with
  | [] => none
  | c :: rest => some (stop, c, ⟨p.text, stop + c.utf8Size, rest⟩)

/-- The level behind an equals sign; an empty one shows everything. -/
def level (p : Piece) : Except FilterFault Verbosity :=
  p.written.bind fun text =>
    if text = [] then .ok .all else (Verbosity.read? text).getDM (.error .unreadable)

/-- What follows a bracketed part: nothing, or an equals sign and a level. -/
def afterBracket (p : Piece) : Except FilterFault Verbosity :=
  match p.rest with
  | [] => .ok .all
  | c :: rest =>
    if c = '=' then level ⟨p.text, p.start + c.utf8Size, rest⟩ else .error .unreadable

/-- The braces of a bracketed part, from behind the opening one, and what follows them. -/
def selector (p : Piece) : Except FilterFault (Selector × Verbosity) :=
  match p.find? ['\x7d'] with
  | none => .error .unreadable
  | some (stop, _, behind) =>
    (p.writtenTo stop).bind fun text =>
      match Selector.read? text, behind.rest with
      | some selector, ']' :: more =>
        (afterBracket ⟨behind.text, behind.start + 1, more⟩).map fun verbosity =>
          (selector, verbosity)
      | _, _ => .error .unreadable

/-- The bracketed part of a piece and what follows it. The answer is a rule if the part names
neither a span nor a value. -/
def bracket (target : Option (List Char)) (p : Piece) : Except FilterFault (Option Rule) :=
  match p.find? [']', '\x7b'] with
  | none => .error .unreadable
  | some (stop, mark, behind) =>
    (p.writtenTo stop).bind fun span =>
      if mark = ']' then
        (afterBracket behind).map fun _ => none
      else
        (selector behind).map fun (selector, verbosity) =>
          if span = [] ∧ !selector.hasValue then some ⟨target, some selector.name, verbosity⟩
          else none

/-- Whether a piece can begin with a character, other than a bracket. -/
def canBegin (c : Char) : Bool := c ∈ ['-', ':', '_'] || isAlphanumeric c

/-- Reads a piece. It may well come to no rule, if it enables nothing here. -/
def rule (p : Piece) : Except FilterFault (Option Rule) :=
  match p.rest with
  | [] => .error .unreadable
  | c :: rest =>
    if c = '[' then bracket none ⟨p.text, p.start + 1, rest⟩
    else if canBegin c then
      match p.find? ['=', '['] with
      | none =>
        p.written.map fun word =>
          match Verbosity.read? word with
          | some verbosity => some ⟨none, none, verbosity⟩
          | none => some ⟨some word, none, .all⟩
      | some (stop, mark, behind) =>
        (p.writtenTo stop).bind fun target =>
          if mark = '=' then
            (level behind).map fun verbosity => some ⟨some target, none, verbosity⟩
          else bracket (some target) behind
    else .error .unreadable

end Piece

/-! ### Filters -/

/-- The rules of a log, in the order in which they were given. -/
structure Filter where
  rules : List Rule
  deriving Repr, DecidableEq

namespace Filter

/-- The filter that shows nothing. -/
def silent : Filter := ⟨[]⟩

/-- The texts between the commas of a text. -/
def pieces : List Char → List (List Char)
  | [] => [[]]
  | c :: cs =>
    if c = ',' then [] :: pieces cs
    else
      match pieces cs with
      | [] => [[c]]
      | piece :: more => (c :: piece) :: more

/-- Reads a filter. Empty pieces are skipped; one fault spoils the whole. -/
def parse (text : String) : Except FilterFault Filter :=
  let given := (pieces text.toList).filter (· ≠ [])
  (given.mapM fun piece => (Piece.ofText piece).rule).map fun rules => ⟨rules.filterMap id⟩

/-- The filter that a reading comes to: a text that is refused shows nothing, and a reader that
breaks off leaves no filter at all. -/
def answer? : Except FilterFault Filter → Option Filter
  | .ok filter => some filter
  | .error .unreadable => some silent
  | .error .torn => none

/-- The rule that decides about an event: of those that are about it the one that says the most,
and of equals the last. -/
def deciding (f : Filter) (e : Event) : Option Rule :=
  (f.rules.filter (·.appliesTo e)).foldl
    (fun best r =>
      match best with
      | none => some r
      | some b => if b.supersededBy r then some r else some b)
    none

/-- Whether an event is shown. -/
def shows (f : Filter) (e : Event) : Bool :=
  match f.deciding e with
  | none => false
  | some r => e.level.rank ≤ r.verbosity

end Filter

end OverrunHarness
