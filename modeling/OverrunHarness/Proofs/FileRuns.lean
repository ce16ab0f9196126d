import OverrunHarness.History
import OverrunHarness.Proofs.DryRun
import OverrunHarness.Proofs.SharedBuffer
/-!
# Runs over files

A run over a file is a run over what loading it came to: over the bytes that it holds, announced by
one more event, or not a run at all. The allocation that the bytes came to lie in, and the words
that a run without a seed would have drawn, are not those of a run over the same bytes in memory;
that makes no difference (`decisions_runLoaded`).

Nothing that a run does is seen in the files: the state that a history leaves is the one that its
changes alone would have left (`history_filter_changes`).
-/

namespace OverrunHarness

/-- A seeded run over loaded bytes decides as any run over these bytes, wherever they lie. -/
theorem decisions_runLoaded (path : Bytes) {bs : Bytes} (small : bs.length < 2 ^ 63)
    {opts : RunOptions} (seeded : opts.seed.isSome = true) (outside outside' : Nat → UInt32)
    (spare spare' : Bytes) :
    ∃ run plan, runLoaded path (.ok bs) opts outside spare = .ok run ∧ run.plan = .ok plan ∧
      (runBytes bs opts outside' spare').plan = .ok plan ∧
      run.events = .inputLoaded path bs.length :: (runBytes bs opts outside' spare').events ∧
      run.stores = (runBytes bs opts outside' spare').stores := by
  have hlen : (InputBuffer.ofBytes bs spare).len + 5 < 2 ^ 64 := by
    rw [InputBuffer.len_ofBytes]
    omega
  have hwords : opts.seed.isSome = true ∨ outside = outside' := .inl seeded
  -- the word is the seed's on both sides, so only the bytes are left to agree on
  have hsame := decisions_runBytes hlen opts hwords spare'
  rw [InputBuffer.bytes_ofBytes] at hsame
  obtain ⟨hplan, hrest⟩ := Prod.mk.inj hsame
  obtain ⟨hevents, hstores⟩ := Prod.mk.inj hrest
  have hdue := plan_runBuffer_of_lt hlen opts outside
  exact ⟨_, _, rfl, hdue, hplan ▸ hdue,
    congrArg (Event.inputLoaded path bs.length :: ·) hevents, hstores⟩

/-- The steps of a history that change nothing may be left out. -/
theorem FileSystem.history_filter_changes (fs : FileSystem) (steps : List FileStep) :
    (fs.history steps).2 = (fs.history (steps.filter FileStep.changes)).2 := by
  induction steps generalizing fs with
  | nil => rfl
  | cons s steps ih =>
    rw [history_cons]
    cases hs : s.changes with
    | true => rw [List.filter_cons_of_pos hs, history_cons, ih]
    | false => rw [List.filter_cons_of_neg (by simp [hs]), ih, step_of_not_changes hs]

/-- **A run over a file does what a run over its bytes does, and a failed load does nothing.** Let
loading a path come to whatever it may. If it came to bytes, then dry or live a seeded run answers
with the plan of a run over those bytes, wherever in memory they lie; its log is one announcement,
with the path as it can be shown and the length, and behind it the log of that run. If the path
could not be loaded, the answer is the fault of loading, without a plan and without an event. A file
system that loads the path so gives that answer and keeps every file as it is; and a history leaves
the files that its changes alone would have left. -/
theorem step_run {path : Bytes} {opts : RunOptions} (seeded : opts.seed.isSome = true)
    (loaded : Except LoadError Bytes) (outside : Nat → UInt32) (spare : Bytes) :
    let answer := FileAnswer.ran (runLoaded path loaded opts outside spare)
    (∀ bs, loaded = .ok bs → bs.length < 2 ^ 63 → ∀ outside' spare',
        let inMemory := runBytes bs opts outside' spare'
        ∃ run plan, answer = .ran (.ok run) ∧ run.plan = .ok plan ∧ inMemory.plan = .ok plan ∧
          run.events = .inputLoaded path bs.length :: inMemory.events ∧
          run.events.map Event.text =
            ("DEBUG oob_harness::harness: input loaded path=" ++ Utf8.lossy path ++ " len=" ++
              bs.length.repr) :: inMemory.events.map Event.text ∧
          run.stores = inMemory.stores) ∧
      (∀ e, loaded = .error e →
        answer = .ran (.error e) ∧ answer.events = [] ∧ answer.plan? = none) ∧
      (∀ fs : FileSystem, fs.load path = loaded →
        fs.step (.run path opts outside spare) = (answer, fs)) ∧
      ∀ (fs : FileSystem) steps,
        (fs.history steps).2 = (fs.history (steps.filter FileStep.changes)).2 := by
  intro answer
  refine ⟨fun bs hload small outside' spare' => ?_, fun e hload => ?_, fun fs hload => ?_,
    fun fs steps => fs.history_filter_changes steps⟩
  · subst hload
    obtain ⟨run, plan, hrun, hplan, hsame, hevents, hstores⟩ :=
      decisions_runLoaded path small seeded outside outside' spare spare'
    refine ⟨run, plan, congrArg FileAnswer.ran hrun, hplan, hsame, hevents, ?_, hstores⟩
    rw [hevents, List.map_cons, Event.text_inputLoaded]
  · subst hload
    exact ⟨rfl, rfl, rfl⟩
  · subst hload
    rfl

/-- A file with the content `abc`, run live under the seed 2 with six cells behind it, beside a run
of a file that is not there and one that fails in the middle of reading. -/
theorem step_run_abc :
    let bs : Bytes := [0x61, 0x62, 0x63]
    let fs := FileSystem.fresh.write [0x66] bs
    let missing : LoadError := ⟨.opening, [0x67], .system SystemError.noSuchFile⟩
    let broken : LoadError := ⟨.reading, [0x67], .system 5⟩
    let spare : Bytes := [0, 0, 0, 0, 0, 0]
    let live := (fs.step (.run [0x66] ⟨some 2, false⟩ (fun _ => 0) spare)).1
    let lost := (fs.step (.run [0x67] ⟨some 2, false⟩ (fun _ => 0) [])).1
    ((RunOptions.mk (some 2) false).seed.isSome = true ∧ fs.load [0x66] = .ok bs ∧
        bs.length < 2 ^ 63 ∧ fs.load [0x67] = .error missing) ∧
      (∃ run, live = .ran (.ok run) ∧ run.plan = .ok [⟨.prefixA, 8, 0x78⟩, ⟨.random, 5, 0x78⟩]) ∧
      (lost = .ran (.error missing) ∧ lost.events = []) ∧
      FileAnswer.ran (runLoaded [0x67] (.error broken) ⟨some 2, false⟩ (fun _ => 0) []) =
        .ran (.error broken) := by
  intro bs fs missing broken spare live lost
  have seeded : (RunOptions.mk (some 2) false).seed.isSome = true := rfl
  have hload : fs.load [0x66] = .ok bs := by rfl
  have small : bs.length < 2 ^ 63 := by decide
  have hlost : fs.load [0x67] = .error missing := by rfl
  obtain ⟨hrun, -, hstep, -⟩ := step_run seeded (fs.load [0x66]) (fun _ => 0) spare
  obtain ⟨-, hfault, hlostStep, -⟩ := step_run seeded (fs.load [0x67]) (fun _ => 0) []
  obtain ⟨-, hbroken, -⟩ := step_run seeded (.error broken) (fun _ => 0) []
  obtain ⟨run, plan, hanswer, hplan, hsame, -⟩ := hrun bs hload small (fun _ => 1) []
  obtain ⟨hfault, hquiet, -⟩ := hfault missing hlost
  have hlive := congrArg Prod.fst (hstep fs rfl)
  have hlost' : lost = _ := congrArg Prod.fst (hlostStep fs rfl)
  refine ⟨⟨seeded, hload, small, hlost⟩, ⟨run, hlive.trans hanswer, ?_⟩,
    ⟨hlost'.trans hfault, hlost' ▸ hquiet⟩, (hbroken broken rfl).1⟩
  rw [hplan, ← hsame]
  exact (plan_runBytes bs _ _ []).trans planOverruns_abc

end OverrunHarness
