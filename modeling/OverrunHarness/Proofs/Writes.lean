import OverrunHarness.Proofs.SharedBuffer
/-!
# A buffer under arbitrary writes

Stores may be aimed anywhere in the allocation, at the input as well as behind it, and in any
number. What a cell then holds is the byte of the **last store aimed at it**, or what it held at the
start (`getElem?_cells_storeAll`). `Store.lastAt` says which byte that is, by the list of stores
alone.

The views of a buffer agree after any stores. Its length is captured once, while the bytes and the
first byte are looked up in the cells as they are; so a store into the input shows in both, and one
behind the input in neither (`bytes_storeAll`).
-/

namespace OverrunHarness

/-! ### The last store aimed at a cell -/

/-- The byte of the last of some stores that is aimed at cell `i`, if any is. -/
def Store.lastAt (ss : List Store) (i : Nat) : Option UInt8 :=
  (ss.filter fun s => s.offset = i).getLast?.map Store.value

namespace Store

@[simp] theorem lastAt_nil (i : Nat) : lastAt [] i = none := rfl

/-- A store in front counts if no later one is aimed at its cell. -/
theorem lastAt_cons (s : Store) (ss : List Store) (i : Nat) :
    lastAt (s :: ss) i = (lastAt ss i).or (if s.offset = i then some s.value else none) := by
  unfold lastAt
  by_cases hs : s.offset = i
  · rw [List.filter_cons_of_pos (by simpa using hs), List.getLast?_cons, if_pos hs]
    cases (ss.filter fun s => s.offset = i).getLast? <;> rfl
  · rw [List.filter_cons_of_neg (by simpa using hs), if_neg hs, Option.or_none]

theorem lastAt_eq_none {ss : List Store} {i : Nat} (h : ∀ s ∈ ss, s.offset ≠ i) :
    lastAt ss i = none := by
  have hnone : ss.filter (fun s => s.offset = i) = [] := by simpa using h
  rw [lastAt, hnone]
  rfl

end Store

/-! ### Cells and views behind a list of stores -/

namespace InputBuffer

/-- A cell holds the byte of the last store aimed at it, or what it held before. -/
theorem getElem?_cells_storeAll_of_lt {b : InputBuffer} {i : Nat} (hi : i < b.capacity)
    (ss : List Store) :
    (b.storeAll ss).cells[i]? = (Store.lastAt ss i).or b.cells[i]? := by
  induction ss generalizing b with
  | nil => rfl
  | cons s ss ih =>
    have hstore : (b.store s.offset s.value).cells[i]? =
        (if s.offset = i then some s.value else none).or b.cells[i]? := by
      rw [getElem?_cells_store]
      by_cases hs : s.offset = i
      · simp [hs, hi]
      · simp [hs, Ne.symm hs]
    rw [storeAll_cons, ih (by rwa [capacity_store]), hstore, Store.lastAt_cons, Option.or_assoc]

/-- The same of every cell, if the stores stay inside: there are no cells outside. -/
theorem getElem?_cells_storeAll {b : InputBuffer} {ss : List Store}
    (inside : ∀ s ∈ ss, s.offset < b.capacity) (i : Nat) :
    (b.storeAll ss).cells[i]? = (Store.lastAt ss i).or b.cells[i]? := by
  by_cases hi : i < b.capacity
  · exact getElem?_cells_storeAll_of_lt hi ss
  · have hnone : ∀ s ∈ ss, s.offset ≠ i := by
      intro s hs heq
      exact hi (heq ▸ inside s hs)
    rw [getElem?_cells_storeAll_of_ne hnone, Store.lastAt_eq_none hnone, Option.none_or]

/-- Stores to distinct cells can change places. -/
theorem store_comm (b : InputBuffer) {i j : Nat} (h : i ≠ j) (x y : UInt8) :
    (b.store i x).store j y = (b.store j y).store i x := by
  simp only [store, Array.setIfInBounds_comm x y h]

/-- The bytes are the cells in front of the length. -/
theorem getElem?_bytes {b : InputBuffer} {i : Nat} (hi : i < b.len) :
    b.bytes[i]? = b.cells[i]? := by
  rw [bytes, ← len_eq, List.getElem?_take_of_lt hi, Array.getElem?_toList]

theorem first_eq_getElem? {b : InputBuffer} (h : 0 < b.len) : b.first = b.cells[0]? := by
  rw [first, ← len_eq, if_pos h]

theorem first_eq_none_iff (b : InputBuffer) : b.first = none ↔ b.len = 0 := by
  rw [first_eq, List.head?_eq_none_iff, ← List.length_eq_zero_iff, length_bytes]

theorem isEmpty_iff (b : InputBuffer) : b.isEmpty = true ↔ b.len = 0 := by
  simp [isEmpty]

end InputBuffer

/-- **A buffer under arbitrary writes.** Take a buffer that holds an input, with room of whatever
content behind it, and make stores that stay inside the allocation. After any number of them the
length and the size are those at the start, and the buffer is empty, and without a first byte,
exactly if the input was. Each cell holds the byte of the last store aimed at it or else what it
held at the start; the bytes are the cells in front of the length, and the first byte is the cell at
the start. Stores behind the input change neither the bytes nor the first byte, nor the seed, nor
what is planned; and stores to distinct cells can change places. -/
theorem storeAll_views (bs spare : Bytes) {ss : List Store}
    (inside : ∀ s ∈ ss, s.offset < bs.length + spare.length) (k : Nat) :
    let b := InputBuffer.ofBytes bs spare
    let now := b.storeAll (ss.take k)
    (now.len = bs.length ∧ now.capacity = bs.length + spare.length ∧
        now.bytes.length = bs.length) ∧
      ((now.isEmpty = true ↔ now.first = none) ∧ (now.first = none ↔ bs.length = 0)) ∧
      (∀ i : Nat, now.cells[i]? = (Store.lastAt (ss.take k) i).or (bs ++ spare)[i]?) ∧
      (∀ i < bs.length, now.bytes[i]? = now.cells[i]?) ∧
      (0 < bs.length → now.first = now.cells[0]?) ∧
      (∀ ts : List Store, (∀ t ∈ ts, bs.length ≤ t.offset ∧ t.offset < bs.length + spare.length) →
        let later := now.storeAll ts
        later.bytes = now.bytes ∧ later.first = now.first ∧
          seedForInput later.bytes = seedForInput now.bytes ∧
          ∀ g, planOverruns later.len later.first g = planOverruns now.len now.first g) ∧
      ∀ s t rest, s.offset ≠ t.offset →
        now.storeAll (s :: t :: rest) = now.storeAll (t :: s :: rest) := by
  intro b now
  have hlen : now.len = bs.length := by rw [InputBuffer.len_storeAll, InputBuffer.len_ofBytes]
  have hcapacity : b.capacity = bs.length + spare.length := InputBuffer.capacity_ofBytes bs spare
  have hempty : now.first = none ↔ bs.length = 0 := by rw [now.first_eq_none_iff, hlen]
  have hinside : ∀ s ∈ ss.take k, s.offset < b.capacity := by
    intro s hs
    rw [hcapacity]
    exact inside s (List.mem_of_mem_take hs)
  refine ⟨⟨hlen, ?_, ?_⟩, ⟨?_, hempty⟩, fun i => ?_, fun i hi => ?_, fun h => ?_,
    fun ts hts => ?_, fun s t rest h => ?_⟩
  · rw [InputBuffer.capacity_storeAll, hcapacity]
  · rw [InputBuffer.length_bytes, hlen]
  · rw [now.isEmpty_iff, hempty, hlen]
  · have hstart : b.cells[i]? = (bs ++ spare)[i]? := by
      rw [← List.getElem?_toArray]
      rfl
    rw [InputBuffer.getElem?_cells_storeAll hinside, hstart]
  · exact InputBuffer.getElem?_bytes (hlen ▸ hi)
  · exact InputBuffer.first_eq_getElem? (hlen ▸ h)
  · intro later
    have hbytes : later.bytes = now.bytes :=
      InputBuffer.bytes_storeAll fun t ht => hlen ▸ (hts t ht).1
    have hfirst : later.first = now.first := by
      rw [later.first_eq, now.first_eq, hbytes]
    refine ⟨hbytes, hfirst, congrArg seedForInput hbytes, fun g => ?_⟩
    rw [hfirst, InputBuffer.len_storeAll]
  · rw [InputBuffer.storeAll_cons, InputBuffer.storeAll_cons, InputBuffer.store_comm _ h]
    rfl

/-- The input `abc` with eight cells behind it. A first store takes the prefix byte away and a later
one puts it back; of two stores to the cell 8 the later one is seen. -/
theorem storeAll_views_abc :
    let bs : Bytes := [0x61, 0x62, 0x63]
    let spare : Bytes := [10, 11, 12, 13, 14, 15, 16, 17]
    let ss : List Store := [⟨0, 0x62⟩, ⟨8, 0x78⟩, ⟨0, 0x61⟩, ⟨8, 0x79⟩]
    let behind : List Store := [⟨5, 0x78⟩, ⟨3, 0x78⟩]
    let now (k : Nat) := (InputBuffer.ofBytes bs spare).storeAll (ss.take k)
    ((∀ s ∈ ss, s.offset < bs.length + spare.length) ∧ 0 < bs.length ∧ 1 < bs.length ∧
        ∀ t ∈ behind, bs.length ≤ t.offset ∧ t.offset < bs.length + spare.length) ∧
      ((now 1).first = some 0x62 ∧ (now 4).first = some 0x61) ∧
      ((now 4).cells[8]? = some 0x79 ∧ (now 4).cells[7]? = some 14 ∧
        (now 4).bytes[1]? = some 0x62) ∧
      ((now 4).storeAll behind).bytes = (now 4).bytes ∧
      (now 4).storeAll [⟨0, 1⟩, ⟨8, 2⟩] = (now 4).storeAll [⟨8, 2⟩, ⟨0, 1⟩] := by
  intro bs spare ss behind now
  have inside : ∀ s ∈ ss, s.offset < bs.length + spare.length := by decide
  have hpos : 0 < bs.length := by decide
  have hone : 1 < bs.length := by decide
  have hbehind : ∀ t ∈ behind, bs.length ≤ t.offset ∧ t.offset < bs.length + spare.length := by
    decide
  obtain ⟨-, -, hcells, -, hfirst, -⟩ := storeAll_views bs spare inside 1
  obtain ⟨-, -, hcells', hbytes, hfirst', hviews, hcomm⟩ := storeAll_views bs spare inside 4
  refine ⟨⟨inside, hpos, hone, hbehind⟩, ⟨?_, ?_⟩, ⟨?_, ?_, ?_⟩, (hviews behind hbehind).1, ?_⟩
  · exact (hfirst hpos).trans ((hcells 0).trans (by decide))
  · exact (hfirst' hpos).trans ((hcells' 0).trans (by decide))
  · exact (hcells' 8).trans (by decide)
  · exact (hcells' 7).trans (by decide)
  · exact (hbytes 1 hone).trans ((hcells' 1).trans (by decide))
  · exact hcomm ⟨0, 1⟩ ⟨8, 2⟩ [] (by decide)

end OverrunHarness
