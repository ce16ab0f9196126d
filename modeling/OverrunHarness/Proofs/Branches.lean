import OverrunHarness.Proofs.SharedBuffer
/-!
# The two branches, side by side

A plan has a part for each branch, the `prefixA` part in front. What either part depends on is
read off what is due: the `prefixA` part on the length and the first byte (`Plan.part_prefixA_due`),
the `random` part on the length and the word drawn (`Plan.part_random_due`). Neither looks at the
other, although both come out of one pass and the draw is made between them.

So a seed has no say in the first part, the content none in whether there is a second one, and an
input none in anything but its length and whether its first byte arms a branch. The last of these
holds of all that a run decides (`decisions_congr_of_armed`).
-/

namespace OverrunHarness

/-! ### The parts of a plan -/

/-- The overruns of a plan that one branch asks for, in their order. -/
def Plan.part (branch : Branch) (plan : Plan) : Plan := plan.filter fun o => o.branch = branch

theorem Plan.part_prefixA_due (len : Nat) (first : Option UInt8) (word : UInt32) :
    (Plan.due len first word).part .prefixA =
      if len % 2 = 1 ∧ first = some 0x61 then [⟨.prefixA, len + 5, 0x78⟩] else [] := by
  unfold Plan.part Plan.due
  split_ifs <;> simp_all

theorem Plan.part_random_due (len : Nat) (first : Option UInt8) (word : UInt32) :
    (Plan.due len first word).part .random =
      if len % 2 = 1 ∧ word % 7 = 0 then [⟨.random, len + 2, 0x78⟩] else [] := by
  unfold Plan.part Plan.due
  split_ifs <;> simp_all

/-- The random branch is in a plan if the length is odd and the draw is zero. -/
theorem Plan.exists_random_due {len : Nat} {first : Option UInt8} {word : UInt32} :
    (∃ o ∈ Plan.due len first word, o.branch = .random) ↔ len % 2 = 1 ∧ word % 7 = 0 := by
  simp [Plan.exists_mem_due]

/-- What is due is its two parts, one behind the other. -/
theorem Plan.part_append_part_due (len : Nat) (first : Option UInt8) (word : UInt32) :
    (Plan.due len first word).part .prefixA ++ (Plan.due len first word).part .random =
      Plan.due len first word := by
  unfold Plan.part Plan.due
  split_ifs <;> simp

/-! ### Runs over bytes -/

/-- **The branches are independent**, and nothing else about an input matters. Take two inputs that
a machine can hold. What the `prefixA` branch plans for one of them is the same for all generators
and under all options. Under one seed, the random branch fires on both or on neither if the lengths
are odd. Under one seed, if the inputs are of one length and both begin with the prefix byte, or
neither, they have the same plan, events and stores. And every plan is at most one overrun of the
`prefixA` branch with at most one of the random branch behind it. -/
theorem branches_independent {bs bs' : Bytes} (small : bs.length < 2 ^ 63)
    (small' : bs'.length < 2 ^ 63) :
    (∀ g g', ∃ plan plan', (planOverruns bs.length bs.head? g).plan = .ok plan ∧
        (planOverruns bs.length bs.head? g').plan = .ok plan' ∧
        plan.part .prefixA = plan'.part .prefixA) ∧
      (∀ opts opts' outside outside' spare spare', ∃ plan plan',
        (runBytes bs opts outside spare).plan = .ok plan ∧
          (runBytes bs opts' outside' spare').plan = .ok plan' ∧
          plan.part .prefixA = plan'.part .prefixA) ∧
      (bs.length % 2 = 1 → bs'.length % 2 = 1 →
        ∀ seed dryRun dryRun' outside outside' spare spare', ∃ plan plan',
          (runBytes bs ⟨some seed, dryRun⟩ outside spare).plan = .ok plan ∧
            (runBytes bs' ⟨some seed, dryRun'⟩ outside' spare').plan = .ok plan' ∧
            ((∃ o ∈ plan, o.branch = .random) ↔ ∃ o ∈ plan', o.branch = .random)) ∧
      (bs.length = bs'.length → (bs.head? = some 0x61 ↔ bs'.head? = some 0x61) →
        ∀ seed dryRun outside outside' spare spare',
          let run := runBytes bs ⟨some seed, dryRun⟩ outside spare
          let run' := runBytes bs' ⟨some seed, dryRun⟩ outside' spare'
          run.plan = run'.plan ∧ run.events = run'.events ∧ run.stores = run'.stores) ∧
      ∀ len first g plan, (planOverruns len first g).plan = .ok plan →
        plan = plan.part .prefixA ++ plan.part .random ∧
          (plan.part .prefixA).length = (if len % 2 = 1 ∧ first = some 0x61 then 1 else 0) ∧
          (plan.part .random).length = if len % 2 = 1 ∧ g.next.1 % 7 = 0 then 1 else 0 := by
  have hlen : bs.length + 5 < 2 ^ 64 := by omega
  refine ⟨fun g g' => ?_, fun opts opts' outside outside' spare spare' => ?_, ?_, ?_, ?_⟩
  · rw [planOverruns_of_lt hlen, planOverruns_of_lt hlen]
    refine ⟨_, _, rfl, rfl, ?_⟩
    rw [Plan.part_prefixA_due, Plan.part_prefixA_due]
  · refine ⟨_, _, plan_runBytes_of_lt small opts outside spare,
      plan_runBytes_of_lt small opts' outside' spare', ?_⟩
    rw [Plan.part_prefixA_due, Plan.part_prefixA_due]
  · intro hodd hodd' seed dryRun dryRun' outside outside' spare spare'
    refine ⟨_, _, plan_runBytes_of_lt small _ outside spare,
      plan_runBytes_of_lt small' _ outside' spare', ?_⟩
    -- both runs draw the first word of the seed, and at odd lengths the draw alone decides
    rw [Plan.exists_random_due, Plan.exists_random_due, hodd, hodd']
    rfl
  · intro hsame harmed seed dryRun outside outside' spare spare' run run'
    have hdecisions : run.decisions = run'.decisions := by
      refine decisions_congr_of_armed ?_ ?_ ?_ _ rfl
      · simpa using hlen
      · simpa using hsame
      · simpa using harmed
    simpa [Run.decisions] using hdecisions
  · intro len first g plan hplan
    obtain ⟨rfl, -⟩ := planOverruns_inv hplan
    rw [Plan.part_append_part_due, Plan.part_prefixA_due, Plan.part_random_due, g.next_eq]
    refine ⟨rfl, ?_, ?_⟩
    · split_ifs <;> rfl
    · split_ifs <;> rfl

/-- The inputs `abc` and `aba` under the seeds 2 and 3. Both branches fire under the seed 2 and the
first of them under the seed 3; the last byte makes no difference. -/
theorem branches_independent_abc :
    let bs : Bytes := [0x61, 0x62, 0x63]
    let bs' : Bytes := [0x61, 0x62, 0x61]
    let run (input : Bytes) (seed : UInt64) :=
      runBytes input ⟨some seed, false⟩ (fun _ => 0) [0, 0, 0, 0, 0, 0]
    (bs.length < 2 ^ 63 ∧ bs'.length < 2 ^ 63 ∧ bs.length % 2 = 1 ∧ bs'.length % 2 = 1 ∧
        bs.length = bs'.length ∧ (bs.head? = some 0x61 ↔ bs'.head? = some 0x61)) ∧
      (∃ plan, (run bs 2).plan = .ok [⟨.prefixA, 8, 0x78⟩, ⟨.random, 5, 0x78⟩] ∧
        (run bs 3).plan = .ok plan ∧ plan.part .prefixA = [⟨.prefixA, 8, 0x78⟩]) ∧
      (∃ plan, (run bs' 2).plan = .ok plan ∧ ∃ o ∈ plan, o.branch = .random) ∧
      (run bs 2).events = (run bs' 2).events ∧ (run bs 2).stores = (run bs' 2).stores := by
  intro bs bs' run
  have small : bs.length < 2 ^ 63 := by decide
  have small' : bs'.length < 2 ^ 63 := by decide
  have hodd : bs.length % 2 = 1 := by decide
  have hodd' : bs'.length % 2 = 1 := by decide
  have harmed : bs.head? = some 0x61 ↔ bs'.head? = some 0x61 := by decide
  obtain ⟨-, hprefix, hrandom, hsame, -⟩ := branches_independent small small'
  have hplan : (run bs 2).plan = .ok [⟨.prefixA, 8, 0x78⟩, ⟨.random, 5, 0x78⟩] :=
    (plan_runBytes bs _ _ _).trans planOverruns_abc
  refine ⟨⟨small, small', hodd, hodd', rfl, harmed⟩, ?_, ?_, ?_⟩
  · obtain ⟨plan, plan', h, h', hpart⟩ := hprefix ⟨some 2, false⟩ ⟨some 3, false⟩ (fun _ => 0)
      (fun _ => 0) [0, 0, 0, 0, 0, 0] [0, 0, 0, 0, 0, 0]
    obtain rfl := Except.ok.inj (hplan.symm.trans h)
    exact ⟨plan', hplan, h', hpart.symm⟩
  · obtain ⟨plan, plan', h, h', hfires⟩ := hrandom hodd hodd' 2 false false (fun _ => 0)
      (fun _ => 0) [0, 0, 0, 0, 0, 0] [0, 0, 0, 0, 0, 0]
    obtain rfl := Except.ok.inj (hplan.symm.trans h)
    exact ⟨plan', h', hfires.mp ⟨_, List.mem_cons_of_mem _ List.mem_cons_self, rfl⟩⟩
  · exact (hsame rfl harmed 2 false _ _ _ _).2

end OverrunHarness
