import OverrunHarness.Proofs.Footprint
import OverrunHarness.Proofs.Records
/-!
# Dry runs predict live runs

Under one seed a dry run and a live run over the same input go the same way up to the point where
the live one begins to store. `Run.Predicts` says in full what that means for the two of them: one
plan, the stores of the live run in the order of the plan, the cells that it leaves behind, and a
log that goes on, where the dry log ends, with one warning for each overrun.

Events put in front of both logs change nothing about that (`Run.Predicts.cons_events`), which is
how runs over files come out of runs over bytes.
-/

namespace OverrunHarness

/-- What a dry run says about a live run, both over the input `bs` with the cells `spare` behind. -/
structure Run.Predicts (dry live : Run) (plan : Plan) (bs spare : Bytes) : Prop where
  dry_plan : dry.plan = .ok plan
  live_plan : live.plan = .ok plan
  dry_stores : dry.stores = []
  /-- The stores are made in the order of the plan, each where and what the plan says. -/
  live_stores : live.stores = plan.map fun o => ⟨o.offset, o.value⟩
  /-- Each overrun is announced once, in order, and always with the length of the input. -/
  events : live.events =
    dry.events ++ plan.map fun o => .writingPastEnd o.branch o.offset bs.length
  /-- The same as the log shows it. -/
  lines : live.events.map Event.text = dry.events.map Event.text ++ plan.map fun o =>
    "WARN oob_harness::harness: writing past end of input buffer branch=\"" ++ o.branch.name ++
      "\" offset=" ++ o.offset.repr ++ " len=" ++ bs.length.repr
  /-- Nothing is announced that is not done. -/
  quiet : ∀ e ∈ dry.events, e.level ≠ .warn
  /-- The dry run leaves memory as it was. -/
  dry_cells : dry.buffer.cells.toList = bs ++ spare
  live_buffer : live.buffer = dry.buffer.storeAll live.stores
  /-- What is planned is found in memory behind the live run. -/
  written : ∀ o ∈ plan, o.offset < bs.length + spare.length →
    live.buffer.cells[o.offset]? = some o.value
  /-- Everything else is as it was. -/
  kept : ∀ i, (∀ o ∈ plan, o.offset ≠ i) → live.buffer.cells[i]? = (bs ++ spare)[i]?
  live_bytes : live.buffer.bytes = bs

theorem Event.level_ofPlanning_ne_warn (len : Nat) (word : UInt32) :
    (Event.ofPlanning len word).level ≠ .warn := by
  rw [ofPlanning]
  split
  · exact Level.noConfusion
  · exact Level.noConfusion

/-- A seeded run asks nothing of the words that come from outside. -/
theorem RunOptions.firstWord_of_seed (seed : UInt64) (dryRun : Bool) (outside : Nat → UInt32) :
    (RunOptions.mk (some seed) dryRun).firstWord outside = (Generator.seeded seed).word 0 := rfl

namespace InputBuffer

variable {b : InputBuffer} {len : Nat} {first : Option UInt8} {word : UInt32}

/-- Behind the stores of what is due, a cell that is due holds the byte planned for it. -/
theorem getElem?_cells_storeAll_of_mem_due {o : Overrun} (ho : o ∈ Plan.due len first word)
    (hoffset : o.offset < b.capacity) :
    (b.storeAll ((Plan.due len first word).map Overrun.toStore)).cells[o.offset]? =
      some o.value := by
  have hplanned : ∃ s ∈ (Plan.due len first word).map Overrun.toStore, s.offset = o.offset :=
    ⟨o.toStore, List.mem_map_of_mem ho, rfl⟩
  rw [getElem?_cells_storeAll_of_value Plan.value_of_mem_stores, if_pos ⟨hoffset, hplanned⟩,
    Plan.value_of_mem_due ho]

/-- A cell that is not due keeps what it holds. -/
theorem getElem?_cells_storeAll_of_not_due {i : Nat}
    (h : ∀ o ∈ Plan.due len first word, o.offset ≠ i) :
    (b.storeAll ((Plan.due len first word).map Overrun.toStore)).cells[i]? = b.cells[i]? := by
  refine getElem?_cells_storeAll_of_ne fun s hs => ?_
  obtain ⟨o, ho, rfl⟩ := List.mem_map.mp hs
  exact h o ho

/-- What is due leaves the input as it is. -/
theorem bytes_storeAll_due :
    (b.storeAll ((Plan.due b.len first word).map Overrun.toStore)).bytes = b.bytes := by
  refine bytes_storeAll fun s hs => ?_
  obtain ⟨o, ho, rfl⟩ := List.mem_map.mp hs
  rw [Overrun.toStore, Plan.offset_of_mem_due ho]
  exact Nat.le_add_right _ _

end InputBuffer

theorem Run.predicts_runBytes {bs : Bytes} (small : bs.length < 2 ^ 63) (seed : UInt64)
    (spare : Bytes) (outside outside' : Nat → UInt32) :
    (runBytes bs ⟨some seed, true⟩ outside spare).Predicts
      (runBytes bs ⟨some seed, false⟩ outside' spare)
      (Plan.due bs.length bs.head? ((Generator.seeded seed).word 0)) bs spare := by
  have hlen : (InputBuffer.ofBytes bs spare).len + 5 < 2 ^ 64 := by
    rw [InputBuffer.len_ofBytes]
    omega
  rw [runBytes, runBytes, runBuffer_of_lt hlen, runBuffer_of_lt hlen, RunOptions.firstWord_of_seed,
    RunOptions.firstWord_of_seed, InputBuffer.len_ofBytes, InputBuffer.first_ofBytes]
  refine ⟨rfl, rfl, rfl, rfl, rfl, ?_, ?_, rfl, rfl, ?_, ?_, ?_⟩
  · simp [Function.comp_def, Overrun.warning, Event.text_writingPastEnd]
  · intro e he
    obtain rfl := List.mem_singleton.mp he
    exact Event.level_ofPlanning_ne_warn _ _
  · intro o ho hoffset
    rw [← InputBuffer.capacity_ofBytes] at hoffset
    exact InputBuffer.getElem?_cells_storeAll_of_mem_due ho hoffset
  · intro i hi
    rw [← List.getElem?_toArray]
    exact InputBuffer.getElem?_cells_storeAll_of_not_due hi
  · exact InputBuffer.bytes_storeAll_due.trans (InputBuffer.bytes_ofBytes bs spare)

/-- The prediction stands if both runs report the same thing first, provided it is no warning. -/
theorem Run.Predicts.cons_events {dry live : Run} {plan : Plan} {bs spare : Bytes}
    (h : dry.Predicts live plan bs spare) {first : Event} (hfirst : first.level ≠ .warn) :
    Run.Predicts { dry with events := first :: dry.events }
      { live with events := first :: live.events } plan bs spare :=
  { h with
    events := congrArg (first :: ·) h.events
    lines := congrArg (first.text :: ·) h.lines
    quiet := by
      intro e he
      rcases List.mem_cons.mp he with rfl | he
      · exact hfirst
      · exact h.quiet e he }

theorem runFile_of_load {fs : FileSystem} {path bs : Bytes} (h : fs.load path = .ok bs)
    (opts : RunOptions) (outside : Nat → UInt32) (spare : Bytes) :
    runFile fs path opts outside spare =
      .ok { runBytes bs opts outside spare with
        events := .inputLoaded path bs.length :: (runBytes bs opts outside spare).events } := by
  rw [runFile, h]
  rfl

/-- **A dry run predicts the live run.** For every input and every seed there is one plan that both
runs answer with, that the live run carries out store by store and that its log repeats behind the
dry log. Memory is afterwards what it was before, but for the cells that the plan names. All of this
holds over bytes as well as over any file that holds them. -/
theorem dryRun_predicts {bs : Bytes} (small : bs.length < 2 ^ 63) (seed : UInt64) (spare : Bytes)
    (outside outside' : Nat → UInt32) :
    ∃ plan,
      (runBytes bs ⟨some seed, true⟩ outside spare).Predicts
        (runBytes bs ⟨some seed, false⟩ outside' spare) plan bs spare ∧
      ∀ fs path, FileSystem.load fs path = .ok bs →
        ∃ dry live, runFile fs path ⟨some seed, true⟩ outside spare = .ok dry ∧
          runFile fs path ⟨some seed, false⟩ outside' spare = .ok live ∧
          dry.Predicts live plan bs spare := by
  have hbytes := Run.predicts_runBytes small seed spare outside outside'
  refine ⟨_, hbytes, fun fs path hload => ?_⟩
  exact ⟨_, _, runFile_of_load hload _ _ _, runFile_of_load hload _ _ _,
    hbytes.cons_events Level.noConfusion⟩

/-- A file with the content `abc`, run under the seed 2 with eight cells behind it: the plan has
both branches, and the cell between the two that are written keeps what it held. -/
theorem dryRun_predicts_abc :
    let bs : Bytes := [0x61, 0x62, 0x63]
    let spare : Bytes := [10, 11, 12, 13, 14, 15, 16, 17]
    let fs := FileSystem.fresh.write [0x66] bs
    let plan : Plan := [⟨.prefixA, 8, 0x78⟩, ⟨.random, 5, 0x78⟩]
    bs.length < 2 ^ 63 ∧ fs.load [0x66] = .ok bs ∧
      ∃ dry live, runFile fs [0x66] ⟨some 2, true⟩ (fun _ => 0) spare = .ok dry ∧
        runFile fs [0x66] ⟨some 2, false⟩ (fun _ => 1) spare = .ok live ∧
        dry.Predicts live plan bs spare ∧
        live.buffer.cells[8]? = some 0x78 ∧ live.buffer.cells[5]? = some 0x78 ∧
        live.buffer.cells[7]? = some 14 := by
  intro bs spare fs plan
  have small : bs.length < 2 ^ 63 := by decide
  have hload : fs.load [0x66] = .ok bs := by rfl
  obtain ⟨plan', hbytes, hfile⟩ := dryRun_predicts small 2 spare (fun _ => 0) fun _ => 1
  have hplan : (runBytes bs ⟨some 2, true⟩ (fun _ => 0) spare).plan = .ok plan :=
    (plan_runBytes bs ⟨some 2, true⟩ (fun _ => 0) spare).trans planOverruns_abc
  obtain rfl := Except.ok.inj (hplan.symm.trans hbytes.dry_plan)
  obtain ⟨dry, live, hdry, hlive, hpredicts⟩ := hfile fs [0x66] hload
  refine ⟨small, hload, dry, live, hdry, hlive, hpredicts, ?_, ?_, ?_⟩
  · exact hpredicts.written ⟨.prefixA, 8, 0x78⟩ (by decide) (by decide)
  · exact hpredicts.written ⟨.random, 5, 0x78⟩ (by decide) (by decide)
  · exact hpredicts.kept 7 (by decide)

end OverrunHarness
