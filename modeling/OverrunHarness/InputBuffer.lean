import OverrunHarness.Text.Utf8
/-!
# The input buffer

The buffer is an **allocation**: cells of memory, the first of which are filled with the input while
the others are spare room behind it. How long the input is was captured when the buffer was made,
and is kept beside the number of cells that are filled.

Design points:

* `cells` is the only memory there is, so a store is described by what it does to each cell
  (`getElem?_cells_store`). `bytes` and `first` are views of the filled cells; stores past the end
  cannot reach them.
* Whoever decides by the length asks for the captured one (`len`); the views go by the filled cells.
  That the two agree is part of being a buffer (`len_eq`), and no store takes it away.
* A store checks nothing. One that leaves the allocation is not a store into this memory and
  changes no cell; whoever cares asks whether the offset is below `capacity`.
-/

namespace OverrunHarness

/-- An allocation whose first cells hold the input. -/
structure InputBuffer where
  cells : Array UInt8
  /-- How many cells hold the input. -/
  filled : Nat
  /-- Length of the input, captured when the buffer was made. -/
  len : Nat
  filled_le : filled ≤ cells.size
  len_eq : len = filled

namespace InputBuffer

/-- A buffer that holds `content`, with the cells `spare` behind it. -/
def ofBytes (content : Bytes) (spare : Bytes := []) : InputBuffer where
  cells := (content ++ spare).toArray
  filled := content.length
  len := content.length
  filled_le := by simp
  len_eq := rfl

/-- Cells in the allocation. -/
def capacity (b : InputBuffer) : Nat := b.cells.size

/-- Whether the input is empty. -/
def isEmpty (b : InputBuffer) : Bool := b.len == 0

/-- The input as it stands in memory. -/
def bytes (b : InputBuffer) : Bytes := b.cells.toList.take b.filled

/-- The first byte of the input, if it has one. -/
def first (b : InputBuffer) : Option UInt8 := if 0 < b.filled then b.cells[0]? else none

/-- The cells behind the input. -/
def spare (b : InputBuffer) : Bytes := b.cells.toList.drop b.filled

/-- Stores a byte at a distance from the start of the buffer. -/
def store (b : InputBuffer) (offset : Nat) (value : UInt8) : InputBuffer where
  cells := b.cells.setIfInBounds offset value
  filled := b.filled
  len := b.len
  filled_le := by simpa using b.filled_le
  len_eq := b.len_eq

@[simp] theorem len_ofBytes (content spare : Bytes) :
    (ofBytes content spare).len = content.length := rfl

@[simp] theorem bytes_ofBytes (content spare : Bytes) :
    (ofBytes content spare).bytes = content := by
  simp [bytes, ofBytes]

@[simp] theorem spare_ofBytes (content spare : Bytes) : (ofBytes content spare).spare = spare := by
  simp [InputBuffer.spare, ofBytes]

@[simp] theorem capacity_ofBytes (content spare : Bytes) :
    (ofBytes content spare).capacity = content.length + spare.length := by
  simp [capacity, ofBytes]

@[simp] theorem len_store (b : InputBuffer) (offset : Nat) (value : UInt8) :
    (b.store offset value).len = b.len := rfl

@[simp] theorem capacity_store (b : InputBuffer) (offset : Nat) (value : UInt8) :
    (b.store offset value).capacity = b.capacity := by
  simp [capacity, store]

/-- A store sets the cell it is aimed at and no other. -/
theorem getElem?_cells_store (b : InputBuffer) (offset : Nat) (value : UInt8) (i : Nat) :
    (b.store offset value).cells[i]? =
      if i = offset ∧ i < b.capacity then some value else b.cells[i]? := by
  simp only [store, capacity, Array.getElem?_setIfInBounds]
  by_cases h : offset = i
  · subst h; by_cases hi : offset < b.cells.size <;> simp [hi]
  · simp [h, Ne.symm h]

/-- The captured length is the length of the input. -/
@[simp] theorem length_bytes (b : InputBuffer) : b.bytes.length = b.len := by
  have hfilled : b.filled ≤ b.cells.toList.length := b.filled_le
  rw [bytes, List.length_take_of_le hfilled, b.len_eq]

/-- The first byte is the head of the input. -/
theorem first_eq (b : InputBuffer) : b.first = b.bytes.head? := by
  obtain ⟨⟨cells⟩, filled, len, hfilled, hlen⟩ := b
  cases filled <;> cases cells <;> simp [first, bytes]

end InputBuffer

end OverrunHarness
