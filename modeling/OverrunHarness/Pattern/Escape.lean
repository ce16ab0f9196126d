import OverrunHarness.Pattern.Blanks
import OverrunHarness.Pattern.Syntax
/-!
# Escapes

What a backslash in a pattern introduces: a character that would mean something else by itself, a
character given by a name or by its number, a class of characters, or a place in the text.

Classes by Unicode property (`\p`) are not among them. No table of properties is at hand, so that
a pattern with such a class is of no use.
-/

namespace OverrunHarness

namespace Pattern

/-- The value of a hexadecimal digit. -/
def hexValue? (c : Char) : Option Nat :=
  if '0' ≤ c ∧ c ≤ '9' then some (c.toNat - '0'.toNat)
  else if 'a' ≤ c ∧ c ≤ 'f' then some (c.toNat - 'a'.toNat + 10)
  else if 'A' ≤ c ∧ c ≤ 'F' then some (c.toNat - 'A'.toNat + 10)
  else none

/-- The character with a given number, in hexadecimal. -/
def charOfHex? (digits : List Char) : Option Char :=
  let n := digits.foldl (fun n c => 16 * n + (hexValue? c).getD 0) 0
  if h : n.isValidChar then some (Char.ofNatAux n h) else none

/-- Takes a given number of hexadecimal digits. -/
def takeHex (verbose : Bool) : (count : Nat) → List Char → Option (List Char × List Char)
  | 0, cs => some ([], cs)
  | _ + 1, [] => none
  | count + 1, c :: cs =>
    if (hexValue? c).isSome then
      (takeHex verbose count (skip verbose cs)).map fun (taken, rest) => (c :: taken, rest)
    else none

/-- A character by its number: some digits between braces, or as many digits as `count` says. -/
def numbered (verbose : Bool) (count : Nat) (cs : List Char) : Option (Literal × List Char) :=
  match skip verbose cs with
  | '\x7b' :: rest =>
    match takeWhilePassing verbose (fun c => (hexValue? c).isSome) (skip verbose rest) with
    | ([], _) => none
    | (digits, '\x7d' :: rest) => (charOfHex? digits).map fun c => (⟨c, false⟩, skip verbose rest)
    | _ => none
  | rest =>
    (takeHex verbose count rest).bind fun (digits, rest) =>
      (charOfHex? digits).map fun c => (⟨c, count = 2⟩, rest)

/-- The names of the places that a boundary between braces can be restricted to. -/
def boundaryNames : List String := ["start", "end", "start-half", "end-half"]

/-- What may follow a boundary: a name between braces. A brace with anything but a name behind it
is left for a repetition. -/
def boundaryName (verbose : Bool) (cs : List Char) : Option (List Char) :=
  match cs with
  | '\x7b' :: rest =>
    match skip verbose rest with
    | [] => none
    | inside =>
      match takeWhilePassing verbose (fun c => c.isAlpha || c == '-') inside with
      | ([], _) => some cs
      | (name, '\x7d' :: rest) => if String.ofList name ∈ boundaryNames then some rest else none
      | _ => none
  | _ => some cs

/-- The characters that have a name of a single letter. -/
def control? : Char → Option Char
  | 'a' => some '\x07'
  | 'f' => some '\x0c'
  | 't' => some '\t'
  | 'n' => some '\n'
  | 'r' => some '\r'
  | 'v' => some '\x0b'
  | _ => none

/-- Reads what is behind a backslash. -/
def escaped (verbose : Bool) : List Char → Option (Atom × List Char)
  | [] => none
  | c :: cs =>
    let literal (p : Literal × List Char) := (Atom.literal p.1, p.2)
    if c = 'x' then (numbered verbose 2 cs).map literal
    else if c = 'u' then (numbered verbose 4 cs).map literal
    else if c = 'U' then (numbered verbose 8 cs).map literal
    else if c ∈ ['d', 's', 'w'] then some (.category false, cs)
    else if c ∈ ['D', 'S', 'W'] then some (.category true, cs)
    else if c ∈ ['A', 'z'] then some (.edge, cs)
    else if c = 'b' then (boundaryName verbose cs).map fun rest => (.boundary, rest)
    else if c ∈ ['B', '<', '>'] then some (.boundary, cs)
    else if c.toNat < 0x80 ∧ !c.isAlphanum then some (.literal ⟨c, false⟩, cs)
    else (control? c).map fun d => (.literal ⟨d, false⟩, cs)

end Pattern

end OverrunHarness
