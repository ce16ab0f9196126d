import OverrunHarness.Random.KeyExpansion
/-!
# Generators

A generator hands out the words of an endless stream, one at each draw.

Design points:

* A stream is given **block by block**, sixteen words each, since that is how a seeded stream is
  computed. Any stream of words can be put into that form (`Generator.ofWords`), so a generator
  whose words come from outside is not a separate case.
* The state is the number of words drawn so far. The block that holds the next word is kept beside
  it, so that a block is computed once for its sixteen words; the field `current_eq` says that it
  is no more than that.
* `Generator.word` is the view: word `k` of the stream, whether drawn already or not. Each
  operation is described by it and by `drawn`.
-/

namespace OverrunHarness

/-- The number of residues of a draw; a residue of zero fires the random branch. -/
def modulus : UInt32 := 7

/-- A stream of words and a place in it. -/
structure Generator where
  /-- The stream, cut into blocks of sixteen words. -/
  blocks : Nat → ChaCha.Block
  /-- Words handed out so far. -/
  drawn : Nat
  /-- The block that holds the next word. -/
  current : ChaCha.Block
  current_eq : current = blocks (drawn / 16)

namespace Generator

/-- Word `k` of the stream. -/
def word (g : Generator) (k : Nat) : UInt32 :=
  ChaCha.wordAt (g.blocks (k / 16)) k

/-- A generator at the beginning of its stream. -/
def ofBlocks (blocks : Nat → ChaCha.Block) : Generator := ⟨blocks, 0, blocks 0, rfl⟩

/-- The generator that a seed stands for: equal seeds give equal streams. -/
def seeded (seed : UInt64) : Generator :=
  let key := KeyExpansion.key seed
  ofBlocks (ChaCha.block key)

/-- A generator for an arbitrary stream of words. -/
def ofWords (words : Nat → UInt32) : Generator :=
  ofBlocks fun n => Vector.ofFn fun i => words (16 * n + i)

@[simp] theorem drawn_seeded (seed : UInt64) : (seeded seed).drawn = 0 := rfl

@[simp] theorem drawn_ofWords (words : Nat → UInt32) : (ofWords words).drawn = 0 := rfl

@[simp] theorem word_ofWords (words : Nat → UInt32) (k : Nat) :
    (ofWords words).word k = words k := by
  simp [word, ofWords, ofBlocks, ChaCha.wordAt, Nat.div_add_mod]

/-- Word `k` of a seeded stream lies in block `k / 16` under the key of the seed. -/
theorem word_seeded (seed : UInt64) (k : Nat) :
    (seeded seed).word k = ChaCha.wordAt (ChaCha.block (KeyExpansion.key seed) (k / 16)) k := rfl

/-- The generator one word further on. -/
def advance (g : Generator) : Generator :=
  if h : (g.drawn + 1) % 16 = 0 then
    ⟨g.blocks, g.drawn + 1, g.blocks ((g.drawn + 1) / 16), rfl⟩
  else
    ⟨g.blocks, g.drawn + 1, g.current, by rw [g.current_eq]; congr 1; omega⟩

/-- Draws a word. -/
def next (g : Generator) : UInt32 × Generator :=
  (ChaCha.wordAt g.current g.drawn, g.advance)

/-- Draws a word and reduces it modulo `modulus`. -/
def nextResidue (g : Generator) : UInt32 × Generator :=
  let (word, rest) := g.next
  (word % modulus, rest)

@[simp] theorem drawn_advance (g : Generator) : g.advance.drawn = g.drawn + 1 := by
  rw [advance]; split <;> rfl

@[simp] theorem word_advance (g : Generator) (k : Nat) : g.advance.word k = g.word k := by
  rw [advance]; split <;> rfl

/-- A draw hands out the word at the generator's place. -/
theorem next_eq (g : Generator) : g.next = (g.word g.drawn, g.advance) := by
  obtain ⟨blocks, drawn, current, rfl⟩ := g
  rfl

theorem nextResidue_eq (g : Generator) :
    g.nextResidue = (g.word g.drawn % modulus, g.advance) := by
  rw [nextResidue, next_eq]

end Generator

end OverrunHarness
