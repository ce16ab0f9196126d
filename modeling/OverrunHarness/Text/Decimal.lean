/-!
# Decimal words

Reading an unsigned 64-bit word from decimal text. One leading plus sign and any number of
leading zeros are allowed; nothing else is, not even blanks.

The text is read from the left and the **first fault met** is the one reported: a digit that
carries the value past 64 bits is reported before a bad character further right.
-/

namespace OverrunHarness

namespace Decimal

/-- Why a text is no 64-bit decimal word. -/
inductive Fault
  /-- There is no character at all. -/
  | empty
  /-- A character is no decimal digit, or there is none behind the sign. -/
  | invalidDigit
  /-- The value needs more than 64 bits. -/
  | tooLarge
  deriving Repr, DecidableEq

/-- The wording of a fault. -/
def Fault.message : Fault → String
  | empty => "cannot parse integer from empty string"
  | invalidDigit => "invalid digit found in string"
  | tooLarge => "number too large to fit in target type"

/-- Words are below this bound. -/
def bound : Nat := 0x10000000000000000

/-- The value of a decimal digit. -/
def digit? (c : Char) : Option Nat :=
  if '0' ≤ c ∧ c ≤ '9' then some (c.toNat - '0'.toNat) else none

/-- Reads the digits behind a value already read. -/
def readDigits : (value : Nat) → List Char → Except Fault Nat
  | value, [] => .ok value
  | value, c :: cs =>
    match digit? c with
    | none => .error .invalidDigit
    | some d =>
      if value * 10 + d < bound then readDigits (value * 10 + d) cs else .error .tooLarge

/-- Reads a decimal word: an optional plus sign and at least one digit. -/
def read : List Char → Except Fault UInt64
  | [] => .error .empty
  | ['+'] => .error .invalidDigit
  | '+' :: cs => (readDigits 0 cs).map UInt64.ofNat
  | cs => (readDigits 0 cs).map UInt64.ofNat

end Decimal

end OverrunHarness
