import OverrunHarness.Proofs.Planning
import OverrunHarness.Run
/-!
# Stores, one after the other

What a list of stores does to a buffer, and which stores, events and plan a run amounts to.

* A list of stores is looked at one cell at a time. A cell that no store is aimed at is left alone
  (`getElem?_cells_storeAll_of_ne`); if all stores write the same byte, a cell that some store is
  aimed at holds that byte, whatever the order (`getElem?_cells_storeAll_of_value`).
* `performOverruns` is three maps of the plan (`performOverruns_eq`). What carries its induction is
  that a store does not change the captured length, so every event reports the same one.
* `runBuffer_of_lt` is the equation of a run on a buffer that a machine can hold.
-/

namespace OverrunHarness

/-- Makes stores one after the other. -/
def InputBuffer.storeAll (b : InputBuffer) (ss : List Store) : InputBuffer :=
  ss.foldl (fun b s => b.store s.offset s.value) b

namespace InputBuffer

@[simp] theorem storeAll_nil (b : InputBuffer) : b.storeAll [] = b := rfl

@[simp] theorem storeAll_cons (b : InputBuffer) (s : Store) (ss : List Store) :
    b.storeAll (s :: ss) = (b.store s.offset s.value).storeAll ss := rfl

@[simp] theorem len_storeAll (b : InputBuffer) (ss : List Store) :
    (b.storeAll ss).len = b.len := by
  induction ss generalizing b with
  | nil => rfl
  | cons s ss ih => rw [storeAll_cons, ih, len_store]

@[simp] theorem capacity_storeAll (b : InputBuffer) (ss : List Store) :
    (b.storeAll ss).capacity = b.capacity := by
  induction ss generalizing b with
  | nil => rfl
  | cons s ss ih => rw [storeAll_cons, ih, capacity_store]

/-- A cell that no store is aimed at keeps what it holds. -/
theorem getElem?_cells_storeAll_of_ne {b : InputBuffer} {ss : List Store} {i : Nat}
    (h : ∀ s ∈ ss, s.offset ≠ i) : (b.storeAll ss).cells[i]? = b.cells[i]? := by
  induction ss generalizing b with
  | nil => rfl
  | cons s ss ih =>
    have hs : ¬(i = s.offset ∧ i < b.capacity) := fun hc => h s List.mem_cons_self hc.1.symm
    have htail : ∀ t ∈ ss, t.offset ≠ i := fun t ht => h t (List.mem_cons_of_mem s ht)
    rw [storeAll_cons, ih htail, getElem?_cells_store, if_neg hs]

/-- Stores of one and the same byte leave it in the cells they are aimed at and nowhere else. -/
theorem getElem?_cells_storeAll_of_value {b : InputBuffer} {ss : List Store} {value : UInt8}
    (h : ∀ s ∈ ss, s.value = value) (i : Nat) :
    (b.storeAll ss).cells[i]? =
      if i < b.capacity ∧ ∃ s ∈ ss, s.offset = i then some value else b.cells[i]? := by
  induction ss generalizing b with
  | nil => simp
  | cons s ss ih =>
    have htail : ∀ t ∈ ss, t.value = value := fun t ht => h t (List.mem_cons_of_mem s ht)
    rw [storeAll_cons, ih htail, capacity_store, getElem?_cells_store, h s List.mem_cons_self]
    by_cases hi : i < b.capacity
    · by_cases hs : s.offset = i
      · simp [hi, hs]
      · simp [hi, hs, Ne.symm hs]
    · simp [hi]

/-- Stores past the end of the input do not reach it. -/
theorem bytes_storeAll {b : InputBuffer} {ss : List Store} (h : ∀ s ∈ ss, b.len ≤ s.offset) :
    (b.storeAll ss).bytes = b.bytes := by
  refine List.ext_getElem? fun i => ?_
  rw [bytes, bytes, ← len_eq, ← len_eq, len_storeAll, List.getElem?_take, List.getElem?_take]
  by_cases hi : i < b.len
  · rw [if_pos hi, if_pos hi, Array.getElem?_toList, Array.getElem?_toList]
    exact getElem?_cells_storeAll_of_ne fun s hs => Nat.ne_of_gt (Nat.lt_of_lt_of_le hi (h s hs))
  · rw [if_neg hi, if_neg hi]

end InputBuffer

/-! ### Making the overruns of a plan -/

/-- The store that an overrun asks for. -/
def Overrun.toStore (o : Overrun) : Store := ⟨o.offset, o.value⟩

/-- The event that goes ahead of an overrun of a buffer of `len` bytes. -/
def Overrun.warning (len : Nat) (o : Overrun) : Event := .writingPastEnd o.branch o.offset len

theorem performOverruns_eq (b : InputBuffer) (plan : Plan) :
    performOverruns b plan =
      (plan.map (Overrun.warning b.len), plan.map Overrun.toStore,
        b.storeAll (plan.map Overrun.toStore)) := by
  induction plan generalizing b with
  | nil => rfl
  | cons o plan ih =>
    rw [performOverruns, ih, InputBuffer.len_store]
    rfl

/-! ### Runs -/

/-- The plan of a run is the one that planning answers with, whether or not it is carried out. -/
theorem plan_runBuffer (b : InputBuffer) (opts : RunOptions) (outside : Nat → UInt32) :
    (runBuffer b opts outside).plan =
      (planOverruns b.len b.first (opts.generator outside)).plan := by
  rw [runBuffer]
  cases (planOverruns b.len b.first (opts.generator outside)).plan with
  | error overflow => rfl
  | ok plan => cases opts.dryRun <;> rfl

@[simp] theorem InputBuffer.first_ofBytes (content spare : Bytes) :
    (ofBytes content spare).first = content.head? := by
  rw [first_eq, bytes_ofBytes]

@[simp] theorem RunOptions.drawn_generator (opts : RunOptions) (outside : Nat → UInt32) :
    (opts.generator outside).drawn = 0 := by
  rw [generator]
  split <;> rfl

theorem plan_runBytes (bs : Bytes) (opts : RunOptions) (outside : Nat → UInt32) (spare : Bytes) :
    (runBytes bs opts outside spare).plan =
      (planOverruns bs.length bs.head? (opts.generator outside)).plan := by
  rw [runBytes, plan_runBuffer, InputBuffer.len_ofBytes, InputBuffer.first_ofBytes]

/-- The word that a run draws, if it draws one. -/
def RunOptions.firstWord (opts : RunOptions) (outside : Nat → UInt32) : UInt32 :=
  (opts.generator outside).word 0

/-- A run on a buffer that a machine can hold: it plans what is due, and makes it if it is live. -/
theorem runBuffer_of_lt {b : InputBuffer} (h : b.len + 5 < 2 ^ 64) (opts : RunOptions)
    (outside : Nat → UInt32) :
    runBuffer b opts outside =
      let word := opts.firstWord outside
      let plan := Plan.due b.len b.first word
      if opts.dryRun then ⟨.ok plan, [.ofPlanning b.len word], [], b⟩
      else
        ⟨.ok plan, .ofPlanning b.len word :: plan.map (Overrun.warning b.len),
          plan.map Overrun.toStore, b.storeAll (plan.map Overrun.toStore)⟩ := by
  rw [runBuffer, planOverruns_of_lt h, RunOptions.drawn_generator]
  cases hdry : opts.dryRun with
  | true => rfl
  | false =>
    dsimp only
    rw [performOverruns_eq]
    rfl

end OverrunHarness
