import OverrunHarness.Proofs.DryRun
import OverrunHarness.Proofs.SharedBuffer
/-!
# Offsets that do not fit

An offset is a sum, and the sum may leave the machine word. This module says when that happens, and
what has been done by then.

* A branch overflows if it fires too close to the end of the address space, and the first one that
  does ends planning (`exists_overflow_iff`). The distances differ, so there are lengths at which
  only the `prefixA` branch can overflow.
* The `prefixA` branch is looked at in front of the draw: if it overflows, nothing has been drawn
  and nothing reported (`planOverruns_of_prefixA_overflow`). The `random` branch is looked at behind
  it: one word is gone and one event is out (`planOverruns_of_random_overflow`).
* No buffer that a machine can hold is long enough for either.
-/

namespace OverrunHarness

/-! ### Which branch overflows, and when -/

section

variable {len : Nat} {first : Option UInt8} {g : Generator}

/-- An overflow in the first branch leaves no trace. -/
theorem planOverruns_of_prefixA_overflow (hodd : len % 2 = 1)
    (hprefixA : first = some 0x61 ∧ 2 ^ 64 ≤ len + 5) :
    planOverruns len first g = ⟨.error ⟨.prefixA⟩, [], g⟩ := by
  rw [planOverruns_eq, if_neg (Nat.mod_two_ne_zero.mpr hodd), if_pos hprefixA]

/-- An overflow in the second branch comes behind its draw, which then was zero. -/
theorem planOverruns_of_random_overflow (hodd : len % 2 = 1)
    (hprefixA : ¬(first = some 0x61 ∧ 2 ^ 64 ≤ len + 5))
    (hrandom : g.next.1 % 7 = 0 ∧ 2 ^ 64 ≤ len + 2) :
    planOverruns len first g = ⟨.error ⟨.random⟩, [.randomDrawn len 0], g.next.2⟩ := by
  rw [g.next_eq] at hrandom ⊢
  rw [planOverruns_eq, if_neg (Nat.mod_two_ne_zero.mpr hodd), if_neg hprefixA, if_pos hrandom,
    hrandom.1]

/-- Planning overflows exactly if a branch fires at a length that is too great for its distance. -/
theorem exists_overflow_iff :
    (∃ overflow, (planOverruns len first g).plan = .error overflow) ↔
      len % 2 = 1 ∧ (first = some 0x61 ∧ 2 ^ 64 ≤ len + 5 ∨
        g.next.1 % 7 = 0 ∧ 2 ^ 64 ≤ len + 2) := by
  constructor
  · intro ⟨overflow, h⟩
    rw [planOverruns_eq] at h
    split_ifs at h with heven hprefixA hrandom
    · exact ⟨Nat.mod_two_ne_zero.mp heven, Or.inl hprefixA⟩
    · rw [g.next_eq]
      exact ⟨Nat.mod_two_ne_zero.mp heven, Or.inr hrandom⟩
  · intro ⟨hodd, hover⟩
    by_cases hprefixA : first = some 0x61 ∧ 2 ^ 64 ≤ len + 5
    · exact ⟨_, congrArg Planning.plan (planOverruns_of_prefixA_overflow hodd hprefixA)⟩
    · have hrandom := hover.resolve_left hprefixA
      exact ⟨_, congrArg Planning.plan (planOverruns_of_random_overflow hodd hprefixA hrandom)⟩

end

/-- **Where offsets overflow.** Planning overflows exactly if the length is odd and a branch that
fires reaches past the last machine word. If that is the `prefixA` branch, nothing was drawn and
nothing reported; if it is the random branch alone, one word was drawn and the draw is all that was
reported. Otherwise each offset is the sum that it stands for. On an input that a machine can hold,
neither a run over bytes nor one over a file overflows, whatever its options. -/
theorem overflow_boundary (len : UInt64) (first : Option UInt8) (g : Generator) :
    let planning := planOverruns len.toNat first g
    let word := g.next.1
    let rest := g.next.2
    ((∃ overflow, planning.plan = .error overflow) ↔ len.toNat % 2 = 1 ∧
        (first = some 0x61 ∧ 2 ^ 64 ≤ len.toNat + 5 ∨
          word % 7 = 0 ∧ 2 ^ 64 ≤ len.toNat + 2)) ∧
      (len.toNat % 2 = 1 → first = some 0x61 ∧ 2 ^ 64 ≤ len.toNat + 5 →
        planning.plan = .error ⟨.prefixA⟩ ∧ planning.generator = g ∧ planning.events = []) ∧
      (len.toNat % 2 = 1 → ¬(first = some 0x61 ∧ 2 ^ 64 ≤ len.toNat + 5) →
        word % 7 = 0 ∧ 2 ^ 64 ≤ len.toNat + 2 →
        planning.plan = .error ⟨.random⟩ ∧ planning.generator = rest ∧
          planning.events = [.randomDrawn len.toNat 0] ∧
          planning.events.map Event.text =
            ["DEBUG oob_harness::trigger: random branch drawn len=" ++ len.toNat.repr ++
              " residue=0"]) ∧
      (∀ plan, planning.plan = .ok plan → ∀ o ∈ plan,
        o.offset = len.toNat + o.branch.distance ∧ o.offset < 2 ^ 64) ∧
      ∀ bs : Bytes, bs.length ≤ 2 ^ 63 - 1 → ∀ opts outside spare,
        (∃ plan, (runBytes bs opts outside spare).plan = .ok plan) ∧
          ∀ fs path, FileSystem.load fs path = .ok bs → ∃ run plan,
            runFile fs path opts outside spare = .ok run ∧ run.plan = .ok plan := by
  intro planning word rest
  refine ⟨exists_overflow_iff, fun hodd hprefixA => ?_, fun hodd hprefixA hrandom => ?_,
    fun plan hplan o ho => ?_, fun bs hbs opts outside spare => ?_⟩
  · rw [show planning = _ from planOverruns_of_prefixA_overflow hodd hprefixA]
    exact ⟨rfl, rfl, rfl⟩
  · rw [show planning = _ from planOverruns_of_random_overflow hodd hprefixA hrandom]
    refine ⟨rfl, rfl, rfl, ?_⟩
    have hzero : " residue=" ++ (0 : UInt32).toNat.repr = " residue=0" := by decide +kernel
    rw [List.map_singleton, Event.text_randomDrawn, String.append_assoc, hzero]
  · obtain ⟨hdue, hfits⟩ := planOverruns_inv hplan
    subst hdue
    exact ⟨Plan.offset_of_mem_due ho, hfits o ho⟩
  · have small : bs.length < 2 ^ 63 := by omega
    have hplan := plan_runBytes_of_lt small opts outside spare
    exact ⟨⟨_, hplan⟩, fun fs path hload =>
      ⟨_, _, runFile_of_load hload opts outside spare, hplan⟩⟩

/-- The lengths `2 ^ 64 - 5` and `2 ^ 64 - 1`, with draws of zero. The first is the shortest at
which the `prefixA` branch overflows; the random branch still fits there, but not at the second. -/
theorem overflow_boundary_last :
    let zeros := Generator.ofWords fun _ => 0
    let fifth : UInt64 := 0xfffffffffffffffb
    let last : UInt64 := 0xffffffffffffffff
    let bs : Bytes := [0x61, 0x62, 0x63]
    let fs := FileSystem.fresh.write [0x66] bs
    let early := planOverruns fifth.toNat (some 0x61) zeros
    let late := planOverruns last.toNat (some 0x62) zeros
    let fitting := planOverruns fifth.toNat (some 0x62) zeros
    ((fifth.toNat % 2 = 1 ∧ 2 ^ 64 ≤ fifth.toNat + 5) ∧
        (last.toNat % 2 = 1 ∧ zeros.next.1 % 7 = 0 ∧ 2 ^ 64 ≤ last.toNat + 2) ∧
        bs.length ≤ 2 ^ 63 - 1 ∧ fs.load [0x66] = .ok bs) ∧
      (early.plan = .error ⟨.prefixA⟩ ∧ early.generator = zeros ∧ early.events = []) ∧
      (late.plan = .error ⟨.random⟩ ∧ late.generator = zeros.next.2 ∧
        late.events.map Event.text = ["DEBUG oob_harness::trigger: random branch drawn " ++
          "len=18446744073709551615 residue=0"]) ∧
      (fitting.plan = .ok [⟨.random, 0xfffffffffffffffd, 0x78⟩] ∧
        0xfffffffffffffffd = fifth.toNat + Branch.random.distance ∧
        0xfffffffffffffffd < 2 ^ 64) ∧
      ∃ run plan, runFile fs [0x66] ⟨none, false⟩ (fun _ => 0) = .ok run ∧ run.plan = .ok plan := by
  intro zeros fifth last bs fs early late fitting
  have hfifth : fifth.toNat % 2 = 1 ∧ 2 ^ 64 ≤ fifth.toNat + 5 := by decide
  have hlast : last.toNat % 2 = 1 ∧ 2 ^ 64 ≤ last.toNat + 2 := by decide
  have hzero : zeros.next.1 % 7 = 0 := by decide
  have hsmall : bs.length ≤ 2 ^ 63 - 1 := by decide
  have hload : fs.load [0x66] = .ok bs := by rfl
  obtain ⟨-, hearly, -, -, hruns⟩ := overflow_boundary fifth (some 0x61) zeros
  obtain ⟨-, -, hlate, -, -⟩ := overflow_boundary last (some 0x62) zeros
  obtain ⟨-, -, -, hfits, -⟩ := overflow_boundary fifth (some 0x62) zeros
  obtain ⟨hlatePlan, hlateRest, -, hlateText⟩ :=
    hlate hlast.1 (by decide) ⟨hzero, hlast.2⟩
  have hdue : Plan.due fifth.toNat (some 0x62) (zeros.word zeros.drawn) =
      [⟨.random, 0xfffffffffffffffd, 0x78⟩] := by decide +kernel
  have hfitting : fitting.plan = .ok [⟨.random, 0xfffffffffffffffd, 0x78⟩] := by
    rw [← hdue, show fitting = _ from planOverruns_eq _ _ _, if_neg (by decide),
      if_neg (by decide), if_neg (by decide)]
  refine ⟨⟨hfifth, ⟨hlast.1, hzero, hlast.2⟩, hsmall, hload⟩, hearly hfifth.1 ⟨rfl, hfifth.2⟩,
    ⟨hlatePlan, hlateRest, ?_⟩, ⟨hfitting, hfits _ hfitting _ List.mem_cons_self⟩, ?_⟩
  · rw [hlateText]
    decide +kernel
  · exact (hruns bs hsmall ⟨none, false⟩ (fun _ => 0) []).2 fs [0x66] hload

end OverrunHarness
