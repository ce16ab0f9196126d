import OverrunHarness.Proofs.ProcessResult
import OverrunHarness.Proofs.SharedBuffer
import OverrunHarness.Proofs.Spelling
/-!
# Replays

A run in memory is made under the seed that its input hashes to. Whoever has the input can make it
again (`replay`), from the buffer that the run has written past, or from a file by the command line.

The links of the chain are all facts of their own. A live run leaves the input, and thereby the
hash, as it is (`bytes_runBuffer`). A seed is read back from its decimal digits
(`spellsSeed_repr`), and every way to hand it over counts the same
(`Invocation.read_write_of_perm`). Under a seed, the plan depends on the input alone
(`plan_runBytes_of_seed`), and a dry run shows it (`Invocation.perform_dryRun`).
-/

namespace OverrunHarness

open CommandLine

/-- The empty path leads nowhere. -/
theorem FileSystem.ne_nil_of_load {fs : FileSystem} {path bs : Bytes} (h : fs.load path = .ok bs) :
    path ≠ [] := by
  rintro rfl
  have hlocate : fs.locate [] = .error SystemError.noSuchFile := rfl
  rw [load, if_neg List.not_mem_nil, hlocate] at h
  cases h

/-- Under a seed, all runs over an input plan the same. -/
theorem plan_runBytes_of_seed (bs : Bytes) (seed : UInt64) (dryRun dryRun' : Bool)
    (outside outside' : Nat → UInt32) (spare spare' : Bytes) :
    (runBytes bs ⟨some seed, dryRun⟩ outside spare).plan =
      (runBytes bs ⟨some seed, dryRun'⟩ outside' spare').plan := by
  rw [plan_runBytes, plan_runBytes]
  rfl

/-- A dry run of a process ends well and puts out the lines of the plan. -/
theorem Invocation.perform_dryRun {inv : Invocation} (hdry : inv.options.dryRun = true)
    {bs : Bytes} {outside : Nat → UInt32} {plan : Plan}
    (hplan : (runBytes bs inv.options outside).plan = .ok plan) {env : Environment}
    (answered : env.LogAnswered) (clock : Nat → String) (spare : Bytes) :
    let result := inv.perform env (.ok bs) outside clock spare
    result.ending = .exited 0 ∧
      result.output = String.join (plan.map fun o => o.line ++ "\n") := by
  obtain ⟨filter, hfilter⟩ := answered
  rw [inv.perform_ok hfilter, ← plan_runBytes bs inv.options outside [], hplan, outcome,
    if_pos hdry]
  exact ⟨rfl, rfl⟩

/-- **A finding replays.** Take any input, and run it live under the seed it hashes to. The buffer
then still hashes to that seed, and running it again under it, live or dry, in a fresh buffer or in
the same one, plans the same. So does the program, on any file that holds the input: a dry run under
the decimal digits of the seed, whatever it is to log as long as the reader of filters answers, ends
well and puts out a line for each overrun of that plan, in order. The digits may be attached to
their option, behind it or in the environment, and the path may stand by itself or behind the
separator, in whatever order. -/
theorem replay {bs : Bytes} (small : bs.length < 2 ^ 63) (outside : Nat → UInt32) (spare : Bytes) :
    let seed := seedForInput bs
    let live := runBytes bs ⟨some seed, false⟩ outside spare
    live.buffer.bytes = bs ∧ seedForInput live.buffer.bytes = seed ∧
      ∃ plan, live.plan = .ok plan ∧
        (∀ dryRun outside' spare',
          (runBytes bs ⟨some seed, dryRun⟩ outside' spare').plan = .ok plan ∧
            (runBuffer live.buffer ⟨some seed, dryRun⟩ outside').plan = .ok plan) ∧
        ∀ fs path, fs.load path = .ok bs → ∀ env seedParts pathParts parts behind,
          env.LogAnswered → SeedGiven (Utf8.encode seed.toNat.repr) seedParts env.seed →
          PathGiven path pathParts behind → parts.Perm ([.dryRun] ++ seedParts ++ pathParts) →
          ∀ outside' clock spare',
            let result := runProcess (write parts behind) env fs outside' clock spare'
            result.ending = .exited 0 ∧
              result.output = String.join (plan.map fun o => o.line ++ "\n") := by
  intro seed live
  have hlen : (InputBuffer.ofBytes bs spare).len + 5 < 2 ^ 64 := by
    rw [InputBuffer.len_ofBytes]
    omega
  have hbytes : live.buffer.bytes = bs :=
    (bytes_runBuffer hlen _ outside).trans (InputBuffer.bytes_ofBytes bs spare)
  obtain ⟨plan, hplan⟩ : ∃ plan, live.plan = .ok plan := ⟨_, plan_runBuffer_of_lt hlen _ outside⟩
  have hagain (dryRun : Bool) (outside' : Nat → UInt32) (spare' : Bytes) :
      (runBytes bs ⟨some seed, dryRun⟩ outside' spare').plan = .ok plan :=
    (plan_runBytes_of_seed bs seed dryRun false outside' outside spare' spare).trans hplan
  refine ⟨hbytes, congrArg seedForInput hbytes, plan, hplan, fun dryRun outside' spare' => ?_, ?_⟩
  · refine ⟨hagain dryRun outside' spare', ?_⟩
    -- the buffer of the live run is any buffer that holds the input
    have hlast : live.buffer.len + 5 < 2 ^ 64 := (len_runBuffer hlen _ outside).symm ▸ hlen
    have hwords : (some seed).isSome = true ∨ outside' = outside' := .inl rfl
    have hsame := decisions_runBytes hlast ⟨some seed, dryRun⟩ hwords []
    rw [hbytes] at hsame
    exact (congrArg Prod.fst hsame).trans (hagain dryRun outside' [])
  · intro fs path hload env seedParts pathParts parts behind answered hseed hpath hperm
      outside' clock spare'
    -- whichever way the seed is handed over, the process is the dry run under it
    have hread : Invocation.read (write parts behind) env.seed = .ok ⟨path, ⟨some seed, true⟩⟩ :=
      Invocation.read_write_of_perm (spellsSeed_repr seed) (FileSystem.ne_nil_of_load hload) hseed
        hpath hperm
    rw [runProcess_of_read env hread, hload]
    exact Invocation.perform_dryRun rfl (hagain true outside' []) answered clock spare'

/-- A file with the content `ahh`, where both branches fire under a seed of twenty digits, which is
given behind its option and in the environment. -/
theorem replay_ahh :
    let bs : Bytes := [0x61, 0x68, 0x68]
    let fs := FileSystem.fresh.write [0x66] bs
    let digits := "18055375057633375245"
    let shown := "branch=prefix-a offset=8 byte=0x78\nbranch=random offset=5 byte=0x78\n"
    let process (args : List String) (env : Environment) :=
      runProcess (args.map Utf8.encode) env fs (fun _ => 0) fun _ => ""
    let silent : Environment := {}
    let seeded : Environment := { seed := some (Utf8.encode digits) }
    let byOption := process ["f", "--seed", digits, "--dry-run"] silent
    let byVariable := process ["--dry-run", "--", "f"] seeded
    (bs.length < 2 ^ 63 ∧ fs.load [0x66] = .ok bs ∧ (seedForInput bs).toNat.repr = digits ∧
        silent.LogAnswered ∧ seeded.LogAnswered) ∧
      (byOption.ending = .exited 0 ∧ byOption.output = shown) ∧
      byVariable.ending = .exited 0 ∧ byVariable.output = shown := by
  intro bs fs digits shown process silent seeded byOption byVariable
  have small : bs.length < 2 ^ 63 := by decide
  have hload : fs.load [0x66] = .ok bs := by rfl
  have hseed : seedForInput bs = 18055375057633375245 := by decide +kernel
  have hdigits : (seedForInput bs).toNat.repr = digits := by
    rw [hseed]
    decide +kernel
  obtain ⟨-, -, plan, hplan, -, hprocess⟩ := replay small (fun _ => 0) []
  have hdue : Plan.due 3 (some 0x61) ((Generator.seeded 18055375057633375245).word 0) =
      [⟨.prefixA, 8, 0x78⟩, ⟨.random, 5, 0x78⟩] := by decide +kernel
  rw [plan_runBytes, planOverruns_of_lt (by decide), hseed] at hplan
  obtain rfl := Except.ok.inj (hplan.symm.trans (congrArg Except.ok hdue))
  have hshown : String.join ([(⟨.prefixA, 8, 0x78⟩ : Overrun), ⟨.random, 5, 0x78⟩].map
      fun o => o.line ++ "\n") = shown := by decide +kernel
  rw [hshown, hdigits] at hprocess
  have hsilent : silent.LogAnswered := ⟨.silent, rfl⟩
  have hseeded : seeded.LogAnswered := ⟨.silent, rfl⟩
  refine ⟨⟨small, hload, hdigits, hsilent, hseeded⟩, ?_, ?_⟩
  · have hargs : write [.operand [0x66], .seed false (Utf8.encode digits), .dryRun] none =
        ["f", "--seed", digits, "--dry-run"].map Utf8.encode := by decide +kernel
    have hresult := hprocess fs [0x66] hload silent _ _ _ _ hsilent (.option false none)
      (.plain (by decide))
      (by decide +kernel : [.operand [0x66], .seed false (Utf8.encode digits), .dryRun].Perm _)
      (fun _ => 0) (fun _ => "") []
    rwa [hargs] at hresult
  · have hargs : write [.dryRun] (some [[0x66]]) = ["--dry-run", "--", "f"].map Utf8.encode := by
      decide +kernel
    have hresult := hprocess fs [0x66] hload seeded _ _ _ _ hseeded
      .environment .behind (List.Perm.refl [Part.dryRun]) (fun _ => 0) (fun _ => "") []
    rwa [hargs] at hresult

end OverrunHarness
