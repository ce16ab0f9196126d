import OverrunHarness.Proofs.Stores
/-!
# The footprint of a run

Which cells of an allocation a run writes, and that it writes no other.

A live run over an input of odd length writes the cell five behind the end if the input begins with
the prefix byte, and the cell two behind the end if the draw is zero. That is all
(`cells_runBuffer`): there is nothing in front of the end that a run could reach, and neither the
order of the two stores nor repeating one of them is seen anywhere else.
-/

namespace OverrunHarness

/-! ### The plan of a run, as stores -/

theorem Plan.value_of_mem_stores {len : Nat} {first : Option UInt8} {word : UInt32} :
    ∀ s ∈ (Plan.due len first word).map Overrun.toStore, s.value = 0x78 := by
  intro s hs
  obtain ⟨o, ho, rfl⟩ := List.mem_map.mp hs
  exact Plan.value_of_mem_due ho

theorem Plan.exists_offset_stores {len : Nat} {first : Option UInt8} {word : UInt32} {i : Nat} :
    (∃ s ∈ (Plan.due len first word).map Overrun.toStore, s.offset = i) ↔
      len % 2 = 1 ∧ (i = len + 5 ∧ first = some 0x61 ∨ i = len + 2 ∧ word % 7 = 0) := by
  rw [← Plan.exists_offset_due]
  constructor
  · rintro ⟨s, hs, rfl⟩
    obtain ⟨o, ho, rfl⟩ := List.mem_map.mp hs
    exact ⟨o, ho, rfl⟩
  · rintro ⟨o, ho, rfl⟩
    exact ⟨o.toStore, List.mem_map_of_mem ho, rfl⟩

/-- The stores of a run are what is due, or none. -/
theorem stores_runBuffer {b : InputBuffer} (h : b.len + 5 < 2 ^ 64) (opts : RunOptions)
    (outside : Nat → UInt32) :
    (runBuffer b opts outside).stores =
      if opts.dryRun then []
      else (Plan.due b.len b.first (opts.firstWord outside)).map Overrun.toStore := by
  rw [runBuffer_of_lt h]
  cases opts.dryRun <;> rfl

/-- The buffer behind a run is the buffer in front of it, with the stores of the run made. -/
theorem buffer_runBuffer {b : InputBuffer} (h : b.len + 5 < 2 ^ 64) (opts : RunOptions)
    (outside : Nat → UInt32) :
    (runBuffer b opts outside).buffer = b.storeAll (runBuffer b opts outside).stores := by
  rw [runBuffer_of_lt h]
  cases opts.dryRun <;> rfl

/-- The offset of every store of a run is one of two, both past the end. -/
theorem offset_of_mem_stores {b : InputBuffer} (h : b.len + 5 < 2 ^ 64) {opts : RunOptions}
    {outside : Nat → UInt32} {s : Store} (hs : s ∈ (runBuffer b opts outside).stores) :
    s.offset = b.len + 5 ∨ s.offset = b.len + 2 := by
  rw [stores_runBuffer h] at hs
  cases hdry : opts.dryRun with
  | true => simp [hdry] at hs
  | false =>
    rw [hdry] at hs
    obtain ⟨-, ⟨hi, -⟩ | ⟨hi, -⟩⟩ := Plan.exists_offset_stores.mp ⟨s, hs, rfl⟩
    · exact Or.inl hi
    · exact Or.inr hi

/-! ### Cells -/

/-- The cells behind a run, one by one. -/
theorem getElem?_cells_runBuffer {b : InputBuffer} (h : b.len + 5 < 2 ^ 64) (opts : RunOptions)
    (outside : Nat → UInt32) {i : Nat} (hi : i < b.capacity) :
    (runBuffer b opts outside).buffer.cells[i]? =
      if opts.dryRun = false ∧ b.len % 2 = 1 ∧
          (i = b.len + 5 ∧ b.bytes.head? = some 0x61 ∨
            i = b.len + 2 ∧ opts.firstWord outside % 7 = 0)
      then some 0x78 else b.cells[i]? := by
  rw [buffer_runBuffer h, stores_runBuffer h]
  cases opts.dryRun with
  | true => simp
  | false =>
    rw [if_neg Bool.false_ne_true,
      InputBuffer.getElem?_cells_storeAll_of_value Plan.value_of_mem_stores i, ← b.first_eq]
    simp only [Plan.exists_offset_stores, hi, true_and]

/-- A buffer is its input with the cells behind it. -/
theorem InputBuffer.ofBytes_bytes_spare (b : InputBuffer) : ofBytes b.bytes b.spare = b := by
  obtain ⟨⟨cells⟩, filled, len, hfilled, rfl⟩ := b
  have hlen : min len cells.length = len := Nat.min_eq_left hfilled
  simp [ofBytes, bytes, InputBuffer.spare, hlen]

/-- **The footprint of a run.** In an allocation with six cells or more behind the input, a cell
holds the overrun byte if the run is live, the length is odd, and the cell is the one of a branch
that fires; every other cell holds what it held before. The input, its length and the size of the
allocation stay as they are, and a dry run or an even length changes nothing at all. Stores picked
from those of the run, in any order and any number of times, are not seen in any third cell. -/
theorem cells_runBuffer {b : InputBuffer} (room : b.len + 6 ≤ b.capacity)
    (small : b.capacity < 2 ^ 63) (opts : RunOptions) (outside : Nat → UInt32) :
    let run := runBuffer b opts outside
    (∀ i < b.capacity, run.buffer.cells[i]? =
        if opts.dryRun = false ∧ b.len % 2 = 1 ∧
            (i = b.len + 5 ∧ b.bytes.head? = some 0x61 ∨
              i = b.len + 2 ∧ (opts.generator outside).word 0 % 7 = 0)
        then some 0x78 else b.cells[i]?) ∧
      run.buffer.bytes = b.bytes ∧ run.buffer.len = b.len ∧ run.buffer.capacity = b.capacity ∧
      (opts.dryRun = true ∨ b.len % 2 = 0 → run.buffer = b) ∧
      run.buffer = b.storeAll run.stores ∧
      (∀ ss ⊆ run.stores, ∀ i, i ≠ b.len + 5 → i ≠ b.len + 2 →
        (b.storeAll ss).cells[i]? = b.cells[i]?) ∧
      runBytes b.bytes opts outside b.spare = run := by
  intro run
  have hlen : b.len + 5 < 2 ^ 64 := by omega
  have hbuffer : run.buffer = b.storeAll run.stores := buffer_runBuffer hlen opts outside
  have hoffset : ∀ s ∈ run.stores, s.offset = b.len + 5 ∨ s.offset = b.len + 2 :=
    fun s hs => offset_of_mem_stores hlen hs
  have hpast : ∀ s ∈ run.stores, b.len ≤ s.offset := by
    intro s hs
    rcases hoffset s hs with h | h <;> omega
  refine ⟨fun i hi => getElem?_cells_runBuffer hlen opts outside hi, ?_, ?_, ?_, ?_, hbuffer,
    ?_, ?_⟩
  · rw [hbuffer, InputBuffer.bytes_storeAll hpast]
  · rw [hbuffer, InputBuffer.len_storeAll]
  · rw [hbuffer, InputBuffer.capacity_storeAll]
  · intro hidle
    have hnone : run.stores = [] := by
      rw [show run.stores = _ from stores_runBuffer hlen opts outside]
      rcases hidle with hdry | heven
      · rw [if_pos hdry]
      · simp [Plan.due, heven]
    rw [hbuffer, hnone, InputBuffer.storeAll_nil]
  · intro ss hss i hfive htwo
    refine InputBuffer.getElem?_cells_storeAll_of_ne fun s hs heq => ?_
    rcases hoffset s (hss hs) with h | h
    · exact hfive (heq.symm.trans h)
    · exact htwo (heq.symm.trans h)
  · rw [runBytes, b.ofBytes_bytes_spare]

/-- Both branches fire behind the input `abc` under the seed 2: the cells 8 and 5 are written, and
the cell between them keeps what it held. -/
theorem cells_runBuffer_abc :
    let b := InputBuffer.ofBytes [0x61, 0x62, 0x63] [10, 11, 12, 13, 14, 15, 16, 17]
    let run := runBuffer b ⟨some 2, false⟩ fun _ => 0
    (b.len + 6 ≤ b.capacity ∧ b.capacity < 2 ^ 63) ∧
      run.buffer.cells[8]? = some 0x78 ∧ run.buffer.cells[5]? = some 0x78 ∧
      run.buffer.cells[7]? = some 14 ∧ run.buffer.bytes = [0x61, 0x62, 0x63] := by
  intro b run
  have room : b.len + 6 ≤ b.capacity := by decide
  have small : b.capacity < 2 ^ 63 := by decide
  obtain ⟨hcells, hbytes, -⟩ := cells_runBuffer room small ⟨some 2, false⟩ fun _ => 0
  refine ⟨⟨room, small⟩, ?_, ?_, ?_, hbytes⟩
  · exact (hcells 8 (by decide)).trans (by decide +kernel)
  · exact (hcells 5 (by decide)).trans (by decide +kernel)
  · exact (hcells 7 (by decide)).trans (by decide +kernel)

end OverrunHarness
