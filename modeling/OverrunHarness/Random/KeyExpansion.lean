import OverrunHarness.Random.ChaCha
/-!
# Keys from 64-bit seeds

A seed of one word is stretched to the eight words of a ChaCha key by a permuted congruential
generator: its state starts at the seed, advances by a linear step before each word, and each word
is a rotation of bits of the state by an amount that its top bits choose.
-/

namespace OverrunHarness

namespace KeyExpansion

/-- The linear step of the state. -/
def advance (state : UInt64) : UInt64 :=
  state * 6364136223846793005 + 11634580027462260723

/-- The word that a state yields. -/
def output (state : UInt64) : UInt32 :=
  let bits := (((state >>> 18) ^^^ state) >>> 27).toUInt32
  let amount := (state >>> 59).toUInt32
  (bits >>> amount) ||| (bits <<< ((32 - amount) % 32))

/-- The state that word `i` of the key is taken from: `i + 1` steps behind the seed. -/
def state (seed : UInt64) : Nat → UInt64
  | 0 => advance seed
  | i + 1 => advance (state seed i)

/-- The key that a seed stands for. -/
def key (seed : UInt64) : ChaCha.Key := Vector.ofFn fun i => output (state seed i)

end KeyExpansion

end OverrunHarness
