import OverrunHarness.Text.Utf8
/-!
# SipHash

The keyed hash SipHash with one round for each word of input and three rounds at the end
(SipHash-1-3), and with both key words zero. It turns any byte string into a 64-bit word.

The input is taken eight bytes at a time, each group as a little-endian word. The last word holds
the bytes left over (fewer than eight) and, in its top byte, the length of the input modulo 256,
so that inputs that differ in trailing zeros differ in the words that are absorbed.
-/

namespace OverrunHarness

namespace Sip

/-- The four words of internal state. -/
structure State where
  v0 : UInt64
  v1 : UInt64
  v2 : UInt64
  v3 : UInt64
  deriving Repr, DecidableEq

/-- Rotation to the left, for amounts from 1 to 63. -/
def rotateLeft (x : UInt64) (amount : UInt64) : UInt64 :=
  (x <<< amount) ||| (x >>> (64 - amount))

namespace State

/-- The state before any input, for the key of two zero words. -/
def initial : State :=
  ⟨0x736f6d6570736575, 0x646f72616e646f6d, 0x6c7967656e657261, 0x7465646279746573⟩

/-- One round: two half rounds, each of which adds, rotates and mixes two pairs of words. -/
def round (s : State) : State :=
  let v0 := s.v0 + s.v1
  let v1 := rotateLeft s.v1 13 ^^^ v0
  let v0 := rotateLeft v0 32
  let v2 := s.v2 + s.v3
  let v3 := rotateLeft s.v3 16 ^^^ v2
  let v0 := v0 + v3
  let v3 := rotateLeft v3 21 ^^^ v0
  let v2 := v2 + v1
  let v1 := rotateLeft v1 17 ^^^ v2
  let v2 := rotateLeft v2 32
  ⟨v0, v1, v2, v3⟩

/-- Takes in one word of input. -/
def absorb (s : State) (word : UInt64) : State :=
  let mixed := State.round { s with v3 := s.v3 ^^^ word }
  { mixed with v0 := mixed.v0 ^^^ word }

/-- The hash, once all input is taken in. -/
def finish (s : State) : UInt64 :=
  let t := (State.round (State.round (State.round { s with v2 := s.v2 ^^^ 0xff })))
  t.v0 ^^^ t.v1 ^^^ t.v2 ^^^ t.v3

end State

/-- Bytes as a little-endian number; meant for at most eight of them. -/
def littleEndian (bs : Bytes) : UInt64 :=
  bs.foldr (fun b word => (word <<< 8) ||| b.toUInt64) 0

/-- The words that an input of `length` bytes is absorbed as, given the bytes not yet cut. -/
def words (length : Nat) : Bytes → List UInt64
  | b0 :: b1 :: b2 :: b3 :: b4 :: b5 :: b6 :: b7 :: rest =>
    littleEndian [b0, b1, b2, b3, b4, b5, b6, b7] :: words length rest
  | rest => [(UInt64.ofNat length <<< 56) ||| littleEndian rest]

/-- The hash of a byte string. -/
def hash (bs : Bytes) : UInt64 :=
  ((words bs.length bs).foldl State.absorb State.initial).finish

end Sip

end OverrunHarness
