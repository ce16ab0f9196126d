import OverrunHarness.Proofs.Footprint
/-!
# Runs that share a buffer

Any number of runs, one after the other, on one and the same buffer.

* A run is a function of the input and of its own request: two buffers that hold the same bytes
  give the same plan, events and stores, whatever lies behind the bytes (`decisions_congr`).
* The invariant of a sequence is that the buffer **still holds the input**. One run keeps it
  (`bytes_runBuffer`), so a sequence does (`bytes_runAll`), and no run learns of those before it.
* What the sequence leaves in memory is all stores together (`buffer_runAll`). They write one and
  the same byte, so only the set of requests counts, neither their order nor how often each was
  made (`buffer_runAll_congr`).
-/

namespace OverrunHarness

/-- A run that is asked for: how it is to be made, and the words it draws if it has no seed. -/
structure Request where
  options : RunOptions
  outside : Nat → UInt32

/-- Makes runs on a buffer, one after the other. -/
def InputBuffer.runAll : InputBuffer → List Request → List Run × InputBuffer
  | b, [] => ([], b)
  | b, r :: rs =>
    let run := runBuffer b r.options r.outside
    let (runs, last) := run.buffer.runAll rs
    (run :: runs, last)

/-- The part of a run that others can learn of without looking at the memory. -/
def Run.decisions (run : Run) : Except OffsetOverflow Plan × List Event × List Store :=
  (run.plan, run.events, run.stores)

/-! ### One run -/

namespace InputBuffer

@[simp] theorem storeAll_append (b : InputBuffer) (ss ts : List Store) :
    b.storeAll (ss ++ ts) = (b.storeAll ss).storeAll ts := by
  rw [storeAll, storeAll, storeAll, List.foldl_append]

/-- Buffers of one length are equal if their cells are. -/
theorem ext_cells {b b' : InputBuffer} (hlen : b.len = b'.len)
    (hcells : ∀ i : Nat, b.cells[i]? = b'.cells[i]?) : b = b' := by
  obtain ⟨cells, filled, len, hfilled, rfl⟩ := b
  obtain ⟨cells', filled', len', hfilled', rfl⟩ := b'
  obtain rfl : len = len' := hlen
  obtain rfl : cells = cells' := Array.ext_getElem? hcells
  rfl

end InputBuffer

/-- Stores of one byte are told apart by the cells they are aimed at and by nothing else. -/
theorem InputBuffer.storeAll_congr {b : InputBuffer} {ss ts : List Store} {value : UInt8}
    (hss : ∀ s ∈ ss, s.value = value) (hts : ∀ t ∈ ts, t.value = value)
    (h : ∀ i, (∃ s ∈ ss, s.offset = i) ↔ ∃ t ∈ ts, t.offset = i) :
    b.storeAll ss = b.storeAll ts := by
  refine ext_cells (by rw [len_storeAll, len_storeAll]) fun i => ?_
  rw [getElem?_cells_storeAll_of_value hss, getElem?_cells_storeAll_of_value hts]
  simp only [h]

/-- The first byte counts only as the one that arms a branch, or as any other. -/
theorem Plan.due_congr {len : Nat} {first first' : Option UInt8} {word : UInt32}
    (h : first = some 0x61 ↔ first' = some 0x61) :
    Plan.due len first word = Plan.due len first' word := by
  simp only [due, h]

/-- A run decides by the length, by whether the first byte arms a branch and by the word it draws;
nothing else in memory has a say. -/
theorem decisions_congr_of_armed {b b' : InputBuffer} (h : b.len + 5 < 2 ^ 64)
    (hlen : b.len = b'.len) (harmed : b.first = some 0x61 ↔ b'.first = some 0x61)
    (opts : RunOptions) {outside outside' : Nat → UInt32}
    (hword : opts.firstWord outside = opts.firstWord outside') :
    (runBuffer b opts outside).decisions = (runBuffer b' opts outside').decisions := by
  rw [runBuffer_of_lt h, runBuffer_of_lt (hlen ▸ h), ← hlen, ← hword]
  dsimp only
  rw [← Plan.due_congr harmed]
  cases opts.dryRun <;> rfl

/-- A run decides by the input alone: what lies behind it in memory has no say. -/
theorem decisions_congr {b b' : InputBuffer} (h : b.len + 5 < 2 ^ 64) (hbytes : b.bytes = b'.bytes)
    (opts : RunOptions) {outside outside' : Nat → UInt32}
    (hword : opts.firstWord outside = opts.firstWord outside') :
    (runBuffer b opts outside).decisions = (runBuffer b' opts outside').decisions := by
  have hlen : b.len = b'.len := by rw [← b.length_bytes, hbytes, b'.length_bytes]
  have hfirst : b.first = b'.first := by rw [b.first_eq, b'.first_eq, hbytes]
  exact decisions_congr_of_armed h hlen (by rw [hfirst]) opts hword

theorem plan_runBuffer_of_lt {b : InputBuffer} (h : b.len + 5 < 2 ^ 64) (opts : RunOptions)
    (outside : Nat → UInt32) :
    (runBuffer b opts outside).plan = .ok (Plan.due b.len b.first (opts.firstWord outside)) := by
  rw [runBuffer_of_lt h]
  cases opts.dryRun <;> rfl

theorem plan_runBytes_of_lt {bs : Bytes} (small : bs.length < 2 ^ 63) (opts : RunOptions)
    (outside : Nat → UInt32) (spare : Bytes) :
    (runBytes bs opts outside spare).plan =
      .ok (Plan.due bs.length bs.head? (opts.firstWord outside)) := by
  rw [plan_runBytes, planOverruns_of_lt (by omega), RunOptions.drawn_generator]
  rfl

/-- A run leaves the input as it is. -/
theorem bytes_runBuffer {b : InputBuffer} (h : b.len + 5 < 2 ^ 64) (opts : RunOptions)
    (outside : Nat → UInt32) : (runBuffer b opts outside).buffer.bytes = b.bytes := by
  rw [buffer_runBuffer h]
  refine InputBuffer.bytes_storeAll fun s hs => ?_
  rcases offset_of_mem_stores h hs with hoffset | hoffset <;> omega

theorem len_runBuffer {b : InputBuffer} (h : b.len + 5 < 2 ^ 64) (opts : RunOptions)
    (outside : Nat → UInt32) : (runBuffer b opts outside).buffer.len = b.len := by
  rw [buffer_runBuffer h, InputBuffer.len_storeAll]

/-- A run writes one and the same byte everywhere. -/
theorem value_of_mem_stores {b : InputBuffer} (h : b.len + 5 < 2 ^ 64) {opts : RunOptions}
    {outside : Nat → UInt32} {s : Store} (hs : s ∈ (runBuffer b opts outside).stores) :
    s.value = 0x78 := by
  rw [stores_runBuffer h] at hs
  cases hdry : opts.dryRun with
  | true => simp [hdry] at hs
  | false =>
    rw [hdry] at hs
    exact Plan.value_of_mem_stores s hs

/-- A run stores at the offsets of its plan if it is live, and nowhere if it is dry. -/
theorem exists_offset_stores_iff {b : InputBuffer} (h : b.len + 5 < 2 ^ 64) (opts : RunOptions)
    (outside : Nat → UInt32) (i : Nat) :
    (∃ s ∈ (runBuffer b opts outside).stores, s.offset = i) ↔ opts.dryRun = false ∧
      ∃ plan, (runBuffer b opts outside).plan = .ok plan ∧ ∃ o ∈ plan, o.offset = i := by
  rw [runBuffer_of_lt h]
  cases opts.dryRun with
  | true => simp
  | false => simp [Overrun.toStore]

/-- Whether a request is for a live run that plans a store at an offset from the start of `bs`. -/
def Request.Plans (r : Request) (bs : Bytes) (offset : Nat) : Prop :=
  r.options.dryRun = false ∧ ∃ plan, (runBytes bs r.options r.outside).plan = .ok plan ∧
    ∃ o ∈ plan, o.offset = offset

/-- With a seed, or with the same words from outside, a run draws the same word. -/
theorem RunOptions.firstWord_congr {opts : RunOptions} {outside outside' : Nat → UInt32}
    (h : opts.seed.isSome = true ∨ outside = outside') :
    opts.firstWord outside = opts.firstWord outside' := by
  obtain hseed | rfl := h
  · obtain ⟨seed, hseed⟩ := Option.isSome_iff_exists.mp hseed
    rw [firstWord, firstWord, generator, generator, hseed]
  · rfl

/-- A run on a buffer and a run over the bytes that the buffer holds decide alike. -/
theorem decisions_runBytes {b : InputBuffer} (h : b.len + 5 < 2 ^ 64) (opts : RunOptions)
    {outside outside' : Nat → UInt32} (hwords : opts.seed.isSome = true ∨ outside = outside')
    (spare : Bytes) :
    (runBuffer b opts outside).decisions = (runBytes b.bytes opts outside' spare).decisions := by
  have hbytes : b.bytes = (InputBuffer.ofBytes b.bytes spare).bytes := by
    rw [InputBuffer.bytes_ofBytes]
  exact decisions_congr h hbytes opts (RunOptions.firstWord_congr hwords)

/-! ### Sequences of runs -/

namespace InputBuffer

theorem runAll_cons (b : InputBuffer) (r : Request) (rs : List Request) :
    b.runAll (r :: rs) =
      (runBuffer b r.options r.outside ::
          ((runBuffer b r.options r.outside).buffer.runAll rs).1,
        ((runBuffer b r.options r.outside).buffer.runAll rs).2) := rfl

/-- A sequence of runs leaves the input as it is. -/
theorem bytes_runAll {b : InputBuffer} (h : b.len + 5 < 2 ^ 64) (rs : List Request) :
    (b.runAll rs).2.bytes = b.bytes := by
  induction rs generalizing b with
  | nil => rfl
  | cons r rs ih => rw [runAll_cons, ih (by rwa [len_runBuffer h]), bytes_runBuffer h]

/-- The runs of a sequence decide as if each were the only one. -/
theorem decisions_runAll {b : InputBuffer} (h : b.len + 5 < 2 ^ 64) (rs : List Request) :
    (b.runAll rs).1.map Run.decisions =
      rs.map fun r => (runBuffer b r.options r.outside).decisions := by
  induction rs generalizing b with
  | nil => rfl
  | cons r rs ih =>
    have hlen : (runBuffer b r.options r.outside).buffer.len + 5 < 2 ^ 64 := by
      rwa [len_runBuffer h]
    rw [runAll_cons, List.map_cons, List.map_cons, ih hlen]
    -- the buffer that the first run leaves behind holds the same bytes
    refine congrArg _ (List.map_congr_left fun r' _ => ?_)
    exact decisions_congr hlen (bytes_runBuffer h _ _) r'.options rfl

/-- A sequence of runs leaves the buffer with the stores of all of them made. -/
theorem buffer_runAll {b : InputBuffer} (h : b.len + 5 < 2 ^ 64) (rs : List Request) :
    (b.runAll rs).2 =
      b.storeAll (rs.flatMap fun r => (runBuffer b r.options r.outside).stores) := by
  induction rs generalizing b with
  | nil => rfl
  | cons r rs ih =>
    have hlen : (runBuffer b r.options r.outside).buffer.len + 5 < 2 ^ 64 := by
      rwa [len_runBuffer h]
    have hstores : ∀ r' : Request,
        (runBuffer (runBuffer b r.options r.outside).buffer r'.options r'.outside).stores =
          (runBuffer b r'.options r'.outside).stores := fun r' =>
      congrArg (·.2.2) (decisions_congr hlen (bytes_runBuffer h _ _) r'.options rfl)
    -- behind the first run, the others still store what they would have stored in front of it
    rw [runAll_cons, ih hlen, List.flatMap_cons, storeAll_append, ← buffer_runBuffer h]
    simp only [hstores]

theorem value_runAll {b : InputBuffer} (h : b.len + 5 < 2 ^ 64) (rs : List Request) :
    ∀ s ∈ rs.flatMap fun r => (runBuffer b r.options r.outside).stores, s.value = 0x78 := by
  intro s hs
  obtain ⟨r, -, hr⟩ := List.mem_flatMap.mp hs
  exact value_of_mem_stores h hr

theorem exists_offset_runAll {b : InputBuffer} (h : b.len + 5 < 2 ^ 64) (rs : List Request)
    (i : Nat) :
    (∃ s ∈ rs.flatMap fun r => (runBuffer b r.options r.outside).stores, s.offset = i) ↔
      ∃ r ∈ rs, r.Plans b.bytes i := by
  have hrun : ∀ r : Request, r.Plans b.bytes i ↔
      ∃ s ∈ (runBuffer b r.options r.outside).stores, s.offset = i := by
    intro r
    have hplan : (runBuffer b r.options r.outside).plan =
        (runBytes b.bytes r.options r.outside).plan :=
      congrArg Prod.fst (decisions_runBytes h r.options (.inr rfl) [])
    rw [exists_offset_stores_iff h, hplan, Request.Plans]
  constructor
  · rintro ⟨s, hs, hoffset⟩
    obtain ⟨r, hr, hs⟩ := List.mem_flatMap.mp hs
    exact ⟨r, hr, (hrun r).mpr ⟨s, hs, hoffset⟩⟩
  · rintro ⟨r, hr, hplans⟩
    obtain ⟨s, hs, hoffset⟩ := (hrun r).mp hplans
    exact ⟨s, List.mem_flatMap.mpr ⟨r, hr, hs⟩, hoffset⟩

/-- Only the set of requests counts for the memory that a sequence leaves behind. -/
theorem buffer_runAll_congr {b : InputBuffer} (h : b.len + 5 < 2 ^ 64) {rs rs' : List Request}
    (hrs : ∀ r, r ∈ rs ↔ r ∈ rs') : (b.runAll rs).2 = (b.runAll rs').2 := by
  rw [buffer_runAll h, buffer_runAll h]
  refine storeAll_congr (value_runAll h rs) (value_runAll h rs') fun i => ?_
  simp only [List.mem_flatMap, hrs]

/-- The cells behind a sequence of runs: the overrun byte wherever a live run planned a store. -/
theorem getElem?_cells_runAll {b : InputBuffer} (h : b.len + 5 < 2 ^ 64)
    (room : b.len + 6 ≤ b.capacity) (rs : List Request) (i : Nat) :
    ((∃ r ∈ rs, r.Plans b.bytes i) → (b.runAll rs).2.cells[i]? = some 0x78) ∧
      ((¬∃ r ∈ rs, r.Plans b.bytes i) → (b.runAll rs).2.cells[i]? = b.cells[i]?) := by
  rw [← exists_offset_runAll h rs i, buffer_runAll h,
    getElem?_cells_storeAll_of_value (value_runAll h rs) i]
  -- a planned offset is at most five cells behind the input, so there is a cell to write to
  refine ⟨fun hi => if_pos ⟨?_, hi⟩, fun hi => if_neg fun hc => hi hc.2⟩
  obtain ⟨s, hs, rfl⟩ := hi
  obtain ⟨r, -, hr⟩ := List.mem_flatMap.mp hs
  rcases offset_of_mem_stores h hr with hoffset | hoffset <;> omega

/-- Run `i` of a sequence answers with a plan whose offsets lie in the allocation. -/
theorem exists_run_runAll {b : InputBuffer} (h : b.len + 5 < 2 ^ 64)
    (room : b.len + 6 ≤ b.capacity) {rs : List Request} {i : Nat} {r : Request}
    (hr : rs[i]? = some r) :
    ∃ run plan, (b.runAll rs).1[i]? = some run ∧ run.plan = .ok plan ∧
      (∀ o ∈ plan, o.offset < b.capacity) ∧
      run.decisions = (runBuffer b r.options r.outside).decisions := by
  have hdecisions := congrArg (·[i]?) (decisions_runAll h rs)
  -- read off at `i`, the two lists of decisions say that run `i` is there and what it decides
  simp only [List.getElem?_map, hr, Option.map_some] at hdecisions
  obtain ⟨run, hrun, hsame⟩ := Option.map_eq_some_iff.mp hdecisions
  have hplan : run.plan = .ok (Plan.due b.len b.first (r.options.firstWord r.outside)) :=
    (congrArg Prod.fst hsame).trans (plan_runBuffer_of_lt h r.options r.outside)
  refine ⟨run, _, hrun, hplan, fun o ho => ?_, hsame⟩
  obtain ⟨-, ⟨-, rfl⟩ | ⟨-, rfl⟩⟩ := Plan.mem_due.mp ho <;> simp only <;> omega

end InputBuffer

/-- **Runs that share a buffer do not influence each other.** With six cells or more behind the
input, every run of a sequence plans, reports and stores what a single run with its options does on
a fresh buffer with whatever room; after any number of them the buffer still is one that holds the
input. What they leave in memory is the overrun byte at every offset that a live run planned, and
nothing else; neither the order of the runs nor repeating some of them changes that. -/
theorem runAll_independent {bs spare : Bytes} (room : 6 ≤ spare.length)
    (small : bs.length + spare.length < 2 ^ 63) (rs : List Request) :
    let b := InputBuffer.ofBytes bs spare
    let last (rs : List Request) := (b.runAll rs).2
    (∀ (i : Nat) (r : Request), rs[i]? = some r →
        ∃ run plan, (b.runAll rs).1[i]? = some run ∧ run.plan = .ok plan ∧
          (∀ o ∈ plan, o.offset < b.capacity) ∧
          ∀ outside' spare', r.options.seed.isSome = true ∨ r.outside = outside' →
            let single := runBytes bs r.options outside' spare'
            run.plan = single.plan ∧ run.events = single.events ∧ run.stores = single.stores) ∧
      (∀ k, (last (rs.take k)).len = bs.length ∧ (last (rs.take k)).isEmpty = bs.isEmpty ∧
        (last (rs.take k)).first = bs.head? ∧ (last (rs.take k)).bytes = bs ∧
        seedForInput (last (rs.take k)).bytes = seedForInput bs) ∧
      (∀ i : Nat, (∃ r ∈ rs, r.Plans bs i) → (last rs).cells[i]? = some 0x78) ∧
      (∀ i : Nat, (¬∃ r ∈ rs, r.Plans bs i) → (last rs).cells[i]? = b.cells[i]?) ∧
      (∀ rs', rs'.Perm rs → last rs' = last rs) ∧
      ∀ rs' ⊆ rs, last (rs ++ rs') = last rs := by
  intro b last
  have hbs : b.bytes = bs := InputBuffer.bytes_ofBytes bs spare
  have hlen : b.len + 5 < 2 ^ 64 := by
    rw [InputBuffer.len_ofBytes]
    omega
  have hroom : b.len + 6 ≤ b.capacity := by
    rw [InputBuffer.len_ofBytes, InputBuffer.capacity_ofBytes]
    omega
  -- everything below is said of the bytes; from here on the buffer counts only as their holder
  have hcells := fun i => hbs ▸ b.getElem?_cells_runAll hlen hroom rs i
  refine ⟨fun i r hr => ?_, fun k => ?_, fun i => (hcells i).1, fun i => (hcells i).2,
    fun rs' hperm => ?_, fun rs' hsub => ?_⟩
  · obtain ⟨run, plan, hrun, hplan, hoffset, hsame⟩ := b.exists_run_runAll hlen hroom hr
    refine ⟨run, plan, hrun, hplan, hoffset, fun outside' spare' hwords => ?_⟩
    rw [decisions_runBytes hlen r.options hwords spare', hbs] at hsame
    simpa [Run.decisions] using hsame
  · have hbytes : (last (rs.take k)).bytes = bs :=
      (InputBuffer.bytes_runAll hlen (rs.take k)).trans hbs
    have hlast : (last (rs.take k)).len = bs.length := by
      rw [← InputBuffer.length_bytes, hbytes]
    refine ⟨hlast, ?_, ?_, hbytes, ?_⟩
    · rw [InputBuffer.isEmpty, hlast]
      cases bs <;> rfl
    · rw [InputBuffer.first_eq, hbytes]
    · rw [hbytes]
  · exact InputBuffer.buffer_runAll_congr hlen fun r => hperm.mem_iff
  · refine InputBuffer.buffer_runAll_congr hlen fun r => ?_
    rw [List.mem_append]
    exact ⟨fun h => h.elim id (@hsub r), Or.inl⟩

/-- Three runs over the input `abc`: live under the seed 2, where both branches fire, dry under the
same seed, and live under the seed 3, where one of them does. The last run plans as if it were
alone, and running in the opposite order or making the first run again leaves the same memory. -/
theorem runAll_independent_abc :
    let bs : Bytes := [0x61, 0x62, 0x63]
    let spare : Bytes := [10, 11, 12, 13, 14, 15, 16, 17]
    let request (seed : UInt64) (dryRun : Bool) : Request := ⟨⟨some seed, dryRun⟩, fun _ => 0⟩
    let rs := [request 2 false, request 2 true, request 3 false]
    let b := InputBuffer.ofBytes bs spare
    (6 ≤ spare.length ∧ bs.length + spare.length < 2 ^ 63) ∧
      (∃ run, (b.runAll rs).1[2]? = some run ∧ run.plan = .ok [⟨.prefixA, 8, 0x78⟩]) ∧
      (b.runAll rs).2.bytes = bs ∧ (b.runAll rs).2.cells[5]? = some 0x78 ∧
      (b.runAll rs.reverse).2 = (b.runAll rs).2 ∧
      (b.runAll (rs ++ [request 2 false])).2 = (b.runAll rs).2 := by
  intro bs spare request rs b
  have room : 6 ≤ spare.length := by decide
  have small : bs.length + spare.length < 2 ^ 63 := by decide
  obtain ⟨hruns, hprefix, hwritten, -, hperm, hagain⟩ := runAll_independent room small rs
  refine ⟨⟨room, small⟩, ?_, ?_, ?_, hperm _ rs.reverse_perm, hagain _ ?_⟩
  · obtain ⟨run, plan, hrun, -, -, hsingle⟩ := hruns 2 (request 3 false) rfl
    obtain ⟨hplan, -⟩ := hsingle (fun _ => 0) [] (.inl rfl)
    have hdue : Plan.due 3 (some 0x61) ((Generator.seeded 3).word 0) = [⟨.prefixA, 8, 0x78⟩] := by
      decide +kernel
    refine ⟨run, hrun, hplan.trans ((plan_runBytes bs _ _ []).trans ?_)⟩
    rw [planOverruns_of_lt (by decide), ← hdue]
    rfl
  · obtain ⟨-, -, -, hbytes, -⟩ := hprefix 3
    exact hbytes
  · have hplan : (runBytes bs (request 2 false).options (request 2 false).outside).plan =
        .ok [⟨.prefixA, 8, 0x78⟩, ⟨.random, 5, 0x78⟩] :=
      (plan_runBytes bs _ _ []).trans planOverruns_abc
    exact hwritten 5 ⟨_, List.mem_cons_self, rfl, _, hplan, _,
      List.mem_cons_of_mem _ List.mem_cons_self, rfl⟩
  · exact List.cons_subset.mpr ⟨List.mem_cons_self, List.nil_subset _⟩

end OverrunHarness
