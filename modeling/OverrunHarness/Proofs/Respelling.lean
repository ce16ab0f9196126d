import Mathlib.Data.List.Induction
import OverrunHarness.Proofs.FilteredLog
/-!
# One run in many spellings

The same seeded run can be asked for by many command lines (`Asks`): its parts stand in any order,
the path by itself or behind the separator, the seed attached to its option, behind it or in the
environment, with a sign and zeros in front of its digits or without. None of that is seen from
outside. A process ends, puts out and logs as the run does that it was asked for
(`spellings_agree`).

The command lines are read alike because reading goes by the parts
(`Invocation.read_write_of_perm`). From there on nothing is left of the spelling but what the
environment holds for the seed, and that is not looked at again.
-/

namespace OverrunHarness

open CommandLine

/-! ### All texts of a seed -/

namespace Decimal

theorem digitChar_toNat_sub {c : Char} (h : c.isDigit = true) :
    Nat.digitChar (c.toNat - '0'.toNat) = c := by
  obtain ⟨hlow, hhigh⟩ := Char.isDigit_iff_toNat.mp h
  have hzero : '0'.toNat = 48 := rfl
  have hnine : '9'.toNat = 57 := rfl
  rw [← Char.toNat_inj, Nat.toNat_digitChar_of_lt_ten (by omega)]
  omega

/-- Digits are the digits of their number with zeros in front. -/
theorem exists_eq_replicate_append {digits : List Char} (hne : digits ≠ [])
    (hdigits : ∀ c ∈ digits, c.isDigit = true) :
    ∃ zeros, digits =
      List.replicate zeros '0' ++ Nat.toDigits 10 (Nat.ofDigitChars 10 digits 0) := by
  induction digits using List.reverseRecOn with
  | nil => exact absurd rfl hne
  | append_singleton digits c ih =>
    have hlt : c.toNat - '0'.toNat < 10 := by
      have hc := Char.isDigit_iff_toNat.mp (hdigits c (by simp))
      have hnine : '9'.toNat = '0'.toNat + 9 := rfl
      omega
    have hlast : Nat.toDigits 10 (c.toNat - '0'.toNat) = [c] := by
      rw [Nat.toDigits_of_lt_base hlt, digitChar_toNat_sub (hdigits c (by simp))]
    rw [Nat.ofDigitChars_append, Nat.ofDigitChars_cons, Nat.ofDigitChars_nil]
    by_cases hfront : digits = []
    · subst hfront
      refine ⟨0, ?_⟩
      rw [Nat.ofDigitChars_nil, Nat.mul_zero, Nat.zero_add, hlast]
      rfl
    obtain ⟨zeros, hzeros⟩ := ih hfront fun d hd => hdigits d (List.mem_append_left _ hd)
    -- the number of the digits in front decides whether the last digit has any in front of it
    by_cases hvalue : Nat.ofDigitChars 10 digits 0 = 0
    · rw [hvalue, Nat.toDigits_zero] at hzeros
      refine ⟨zeros + 1, ?_⟩
      rw [hvalue, Nat.mul_zero, Nat.zero_add, hlast, List.replicate_succ', ← hzeros]
    · refine ⟨zeros, ?_⟩
      rw [← Nat.toDigits_append_toDigits (by decide) (Nat.pos_of_ne_zero hvalue) hlt, hlast,
        ← List.append_assoc, ← hzeros]

/-- The texts of a number are its digits, with any number of zeros and at most a sign in front. -/
theorem spells_iff {text : List Char} {n : Nat} :
    Spells text n ↔ ∃ sign zeros, (sign = [] ∨ sign = ['+']) ∧
      text = sign ++ (List.replicate zeros '0' ++ n.repr.toList) := by
  constructor
  · intro h
    obtain ⟨sign, digits, htext, hsign, hne, hdigits, hvalue⟩ := h
    obtain ⟨zeros, hzeros⟩ := exists_eq_replicate_append hne hdigits
    rw [hvalue, ← Nat.toList_repr] at hzeros
    exact ⟨sign, zeros, hsign, hzeros ▸ htext⟩
  · intro h
    obtain ⟨sign, zeros, hsign, htext⟩ := h
    refine ⟨sign, _, htext, hsign, by simp [Nat.toDigits_ne_nil], ?_, ?_⟩
    · intro c hc
      rw [Nat.toList_repr, List.mem_append] at hc
      rcases hc with hc | hc
      · rw [List.eq_of_mem_replicate hc]
        rfl
      · exact Nat.isDigit_of_mem_toDigits (by decide) (by decide) hc
    · rw [Nat.ofDigitChars_append, Nat.ofDigitChars_replicate_zero, Nat.mul_zero, Nat.toList_repr,
        Nat.ofDigitChars_toDigits (by decide) (by decide)]

end Decimal

theorem spellsSeed_iff {text : Bytes} {seed : UInt64} :
    SpellsSeed text seed ↔ ∃ sign zeros, (sign = [] ∨ sign = ['+']) ∧
      text = Utf8.encodeChars (sign ++ (List.replicate zeros '0' ++ seed.toNat.repr.toList)) := by
  constructor
  · intro h
    obtain ⟨t, htext, hspells⟩ := h
    obtain ⟨sign, zeros, hsign, ht⟩ := Decimal.spells_iff.mp hspells
    exact ⟨sign, zeros, hsign, by rw [htext, Utf8.encode, ht]⟩
  · intro h
    obtain ⟨sign, zeros, hsign, htext⟩ := h
    refine ⟨String.ofList _, ?_, Decimal.spells_iff.mpr ⟨sign, zeros, hsign, String.toList_ofList⟩⟩
    rw [htext, Utf8.encode, String.toList_ofList]

/-! ### Runs without their spelling -/

/-- The command lines that ask for a run, each with what the environment holds for the seed. -/
inductive Asks (path : Bytes) (seed : UInt64) (dryRun : Bool) : List Bytes → Option Bytes → Prop
  | intro {text : Bytes} {seedParts pathParts parts : List Part} {behind : Option (List Bytes)}
    {environmentSeed : Option Bytes} (spells : SpellsSeed text seed)
    (seedGiven : SeedGiven text seedParts environmentSeed)
    (pathGiven : PathGiven path pathParts behind)
    (perm : parts.Perm (List.replicate dryRun.toNat .dryRun ++ seedParts ++ pathParts)) :
    Asks path seed dryRun (write parts behind) environmentSeed

theorem Asks.read_eq {path : Bytes} {seed : UInt64} {dryRun : Bool} {args : List Bytes}
    {environmentSeed : Option Bytes} (h : Asks path seed dryRun args environmentSeed)
    (hne : path ≠ []) :
    Invocation.read args environmentSeed = .ok ⟨path, ⟨some seed, dryRun⟩⟩ := by
  cases h with
  | intro spells seedGiven pathGiven perm =>
    exact Invocation.read_write_of_perm spells hne seedGiven pathGiven perm

/-- With a seed, the events of a run depend on the input and the options alone. -/
theorem events_runBytes_congr {opts : RunOptions} (hseed : opts.seed.isSome = true) (bs : Bytes)
    (outside outside' : Nat → UInt32) (spare spare' : Bytes) :
    (runBytes bs opts outside spare).events = (runBytes bs opts outside' spare').events := by
  rw [runBytes, runBytes, runBuffer, runBuffer, RunOptions.generator_of_seed hseed outside outside']
  simp only [InputBuffer.len_ofBytes, InputBuffer.first_ofBytes]
  cases (planOverruns bs.length bs.head? (opts.generator outside')).plan with
  | error overflow => rfl
  | ok plan => cases opts.dryRun <;> simp [performOverruns_eq]

/-- With a seed, a process does the same whatever comes from outside, wherever its input lies, and
whatever the environment holds for the seed. Its error stream depends on the time only in the
times of the records. -/
theorem Invocation.exists_perform_eq (inv : Invocation)
    (hseed : inv.options.seed.isSome = true) (env : Environment) (loaded : Except LoadError Bytes) :
    ∃ ending output shown, ∀ environmentSeed outside clock spare,
      inv.perform { env with seed := environmentSeed } loaded outside clock spare =
        ⟨ending, output, recordsOf env.style clock shown⟩ := by
  have hsame (environmentSeed : Option Bytes) :
      { env with seed := environmentSeed }.filter? = env.filter? := rfl
  cases hfilter : env.filter? with
  | none =>
    refine ⟨.panicked, "", [], fun environmentSeed outside clock spare => ?_⟩
    exact inv.perform_of_none ((hsame environmentSeed).trans hfilter) _ _ _ _
  | some filter =>
    cases loaded with
    | error e =>
      refine ⟨.aborted, "", [Event.fatal e].filter filter.shows, ?_⟩
      intro environmentSeed outside clock spare
      exact inv.perform_error ((hsame environmentSeed).trans hfilter) _ _ _ _
    | ok bs =>
      let shown :=
        inv.outcome (planOverruns bs.length bs.head? (inv.options.generator fun _ => 0)).plan
      let events := Event.inputLoaded inv.path bs.length ::
        (runBytes bs inv.options (fun _ => 0) []).events
      refine ⟨shown.1, shown.2, events.filter filter.shows, ?_⟩
      intro environmentSeed outside clock spare
      rw [inv.perform_ok ((hsame environmentSeed).trans hfilter),
        RunOptions.generator_of_seed hseed outside fun _ => 0,
        events_runBytes_congr hseed bs outside (fun _ => 0) spare []]
      rfl

/-- **All spellings of a run are the same run.** For a path, a seed, a choice of how to run, a log
filter and files, there are one ending, one output and one list of logged events, and every command
line that asks for the run gives them, with the time of each record as the only difference. The
texts that count for the seed are its decimal digits, with any number of zeros and at most a plus
sign in front. -/
theorem spellings_agree {path : Bytes} (hne : path ≠ []) (seed : UInt64) (dryRun : Bool)
    (env : Environment) (fs : FileSystem) :
    (∃ ending output shown, ∀ args environmentSeed, Asks path seed dryRun args environmentSeed →
        Invocation.read args environmentSeed = .ok ⟨path, ⟨some seed, dryRun⟩⟩ ∧
          ∀ outside clock spare,
            runProcess args { env with seed := environmentSeed } fs outside clock spare =
              ⟨ending, output, recordsOf env.style clock shown⟩) ∧
      ∀ text, SpellsSeed text seed ↔ ∃ sign zeros, (sign = [] ∨ sign = ['+']) ∧
        text =
          Utf8.encodeChars (sign ++ (List.replicate zeros '0' ++ seed.toNat.repr.toList)) := by
  refine ⟨?_, fun text => spellsSeed_iff⟩
  obtain ⟨ending, output, shown, hperform⟩ :=
    Invocation.exists_perform_eq ⟨path, ⟨some seed, dryRun⟩⟩ rfl env (fs.load path)
  refine ⟨ending, output, shown, fun args environmentSeed hasks => ?_⟩
  have hread := hasks.read_eq hne
  refine ⟨hread, fun outside clock spare => ?_⟩
  exact (runProcess_of_read { env with seed := environmentSeed } hread fs outside clock spare).trans
    (hperform environmentSeed outside clock spare)

/-- A dry run under the seed 7, asked for in three ways: with a sign and zeros behind the option
while the environment holds no text at all, with the option in front and the seed attached, and by
the environment with the path behind the separator. -/
theorem spellings_agree_seven :
    let fs := FileSystem.fresh.write [0x66] [0x61, 0x62, 0x63]
    let env : Environment := { log := some (Utf8.encode "trace") }
    let behind := ["f", "--dry-run", "--seed", "+007"].map Utf8.encode
    let attached := ["--seed=7", "f", "--dry-run"].map Utf8.encode
    let inherited := ["--dry-run", "--", "f"].map Utf8.encode
    let result (args : List Bytes) (environmentSeed : Option Bytes) :=
      runProcess args { env with seed := environmentSeed } fs (fun _ => 0) fun _ => "now"
    ([0x66] ≠ ([] : Bytes) ∧ Asks [0x66] 7 true behind (some [0xFF]) ∧
        Asks [0x66] 7 true attached none ∧
        Asks [0x66] 7 true inherited (some (Utf8.encode "7"))) ∧
      Invocation.read behind (some [0xFF]) = .ok ⟨[0x66], ⟨some 7, true⟩⟩ ∧
      result attached none = result behind (some [0xFF]) ∧
      result inherited (some (Utf8.encode "7")) = result behind (some [0xFF]) := by
  intro fs env behind attached inherited result
  have hne : [0x66] ≠ ([] : Bytes) := by decide
  have hzeros : SpellsSeed (Utf8.encode "+007") 7 :=
    spellsSeed_iff.mpr ⟨['+'], 2, .inr rfl, by decide +kernel⟩
  have hseven : SpellsSeed (Utf8.encode "7") 7 :=
    spellsSeed_iff.mpr ⟨[], 0, .inl rfl, by decide +kernel⟩
  have hplain : PathGiven [0x66] [.operand [0x66]] none := .plain (by decide)
  have hbehind : Asks [0x66] 7 true behind (some [0xFF]) := by
    have hargs : write [.operand [0x66], .dryRun, .seed false (Utf8.encode "+007")] none =
        behind := by decide +kernel
    exact hargs ▸ .intro hzeros (.option false _) hplain (by decide +kernel)
  have hattached : Asks [0x66] 7 true attached none := by
    have hargs : write [.seed true (Utf8.encode "7"), .operand [0x66], .dryRun] none =
        attached := by decide +kernel
    exact hargs ▸ .intro hseven (.option true _) hplain (by decide +kernel)
  have hinherited : Asks [0x66] 7 true inherited (some (Utf8.encode "7")) := by
    have hargs : write [.dryRun] (some [[0x66]]) = inherited := by decide +kernel
    exact hargs ▸ .intro hseven .environment .behind (List.Perm.refl _)
  obtain ⟨⟨ending, output, shown, hall⟩, -⟩ := spellings_agree hne 7 true env fs
  obtain ⟨hread, hresult⟩ := hall _ _ hbehind
  obtain ⟨-, hresult'⟩ := hall _ _ hattached
  obtain ⟨-, hresult''⟩ := hall _ _ hinherited
  have hfirst := hresult (fun _ => 0) (fun _ => "now") []
  exact ⟨⟨hne, hbehind, hattached, hinherited⟩, hread,
    (hresult' (fun _ => 0) (fun _ => "now") []).trans hfirst.symm,
    (hresult'' (fun _ => 0) (fun _ => "now") []).trans hfirst.symm⟩

end OverrunHarness
