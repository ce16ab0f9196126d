/-!
# The ChaCha block function

A key of eight words and a block number give sixteen words of output. The block function puts
four constants, the key and the block number into a 4 × 4 matrix of words, mixes it for twelve
rounds and adds the matrix it began with.

The block number is a 64-bit counter in words 12 and 13, low half first; words 14 and 15 are zero.
-/

namespace OverrunHarness

namespace ChaCha

/-- The key of a stream. -/
abbrev Key := Vector UInt32 8

/-- The sixteen words of one block of output, or of the matrix that it is computed in. -/
abbrev Block := Vector UInt32 16

/-- The word at place `k`, counted round and round a block. -/
def wordAt (b : Block) (k : Nat) : UInt32 :=
  have inRange : k % 16 < 16 := Nat.mod_lt _ (by decide)
  b[k % 16]

/-- Rotation to the left, for amounts from 1 to 31. -/
def rotateLeft (x : UInt32) (amount : UInt32) : UInt32 :=
  (x <<< amount) ||| (x >>> (32 - amount))

/-- Mixes the four words at the given places. -/
def quarterRound (m : Block) (a b c d : Fin 16) : Block :=
  let xa := m[a] + m[b]
  let xd := rotateLeft (m[d] ^^^ xa) 16
  let xc := m[c] + xd
  let xb := rotateLeft (m[b] ^^^ xc) 12
  let xa := xa + xb
  let xd := rotateLeft (xd ^^^ xa) 8
  let xc := xc + xd
  let xb := rotateLeft (xb ^^^ xc) 7
  (((m.set a xa).set b xb).set c xc).set d xd

/-- The places that two rounds mix: the four columns, then the four diagonals. -/
def columnsThenDiagonals : List (Fin 16 × Fin 16 × Fin 16 × Fin 16) :=
  [(0, 4, 8, 12), (1, 5, 9, 13), (2, 6, 10, 14), (3, 7, 11, 15),
   (0, 5, 10, 15), (1, 6, 11, 12), (2, 7, 8, 13), (3, 4, 9, 14)]

/-- Two rounds. -/
def doubleRound (m : Block) : Block :=
  columnsThenDiagonals.foldl (fun m (a, b, c, d) => quarterRound m a b c d) m

/-- The matrix that a block is computed from. -/
def matrix (key : Key) (number : Nat) : Block :=
  #v[0x61707865, 0x3320646e, 0x79622d32, 0x6b206574,
     key[0], key[1], key[2], key[3], key[4], key[5], key[6], key[7],
     UInt32.ofNat number, UInt32.ofNat (number / 0x100000000), 0, 0]

/-- Block `number` of the stream under `key`, by twelve rounds. -/
def block (key : Key) (number : Nat) : Block :=
  let start := matrix key number
  (Nat.repeat doubleRound 6 start).zipWith (· + ·) start

/-- The published test vector of the twelve-round cipher: the first block under the key zero. -/
example :
    block (Vector.replicate 8 0) 0 =
      #v[0x6a9af49b, 0x53f95507, 0x12ce1f81, 0xd583265f, 0xbbc32904, 0x1474e049, 0xa589007e,
         0x5f15ae2e, 0x79f86405, 0xc0e37ad2, 0x3428e82c, 0x798cfaac, 0x2c9f623a, 0x1969dea0,
         0x2fe80b61, 0xbe261341] := by
  decide +kernel

end ChaCha

end OverrunHarness
