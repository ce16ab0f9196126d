import Mathlib.Algebra.Ring.Nat
import OverrunHarness.Plan
/-!
# What planning comes to

`planOverruns` walks through two branches, each of which may overflow, with a draw between them.
Seen from outside it is a function of the length, the first byte and the **next word** of the
generator, and `planOverruns_eq` says which. Everything else about plans is read off that equation;
no later proof opens `planOverruns`.

On a buffer that a machine can hold neither branch overflows, and the plan is `Plan.due`.
-/

namespace OverrunHarness

/-! ### One branch -/

/-- What a branch contributes: an overflow if it fires too close to the end of the address space,
and otherwise its overrun, or nothing if it does not fire. -/
theorem Branch.entries_eq (branch : Branch) (fires : Bool) (len : Nat) :
    branch.entries fires len =
      if fires = true ∧ offsetLimit ≤ len + branch.distance then .error ⟨branch⟩
      else .ok (if fires then [⟨branch, len + branch.distance, overrunByte⟩] else []) := by
  cases fires with
  | false => rfl
  | true =>
    rw [entries, if_pos rfl, Overrun.beyond]
    by_cases hlen : len + branch.distance < offsetLimit
    · rw [if_pos hlen, if_neg fun hc => absurd hc.2 (Nat.not_le.mpr hlen)]
      rfl
    · rw [if_neg hlen, if_pos ⟨rfl, Nat.not_lt.mp hlen⟩]
      rfl

/-! ### Both branches -/

/-- The overruns that are due for a buffer of `len` bytes, given the next word of the generator.
The offsets are sums of natural numbers: whether they fit a machine word is not asked here. -/
def Plan.due (len : Nat) (first : Option UInt8) (word : UInt32) : Plan :=
  if len % 2 = 0 then []
  else
    (if first = some 0x61 then [⟨.prefixA, len + 5, 0x78⟩] else []) ++
      if word % 7 = 0 then [⟨.random, len + 2, 0x78⟩] else []

/-- Planning as a function of the next word. The four cases are told apart by what is found first:
an even length, an overflow in front of the draw, an overflow behind it, or none. -/
theorem planOverruns_eq (len : Nat) (first : Option UInt8) (g : Generator) :
    planOverruns len first g =
      if len % 2 = 0 then ⟨.ok [], [.evenLength len], g⟩
      else if first = some 0x61 ∧ 2 ^ 64 ≤ len + 5 then ⟨.error ⟨.prefixA⟩, [], g⟩
      else if g.word g.drawn % 7 = 0 ∧ 2 ^ 64 ≤ len + 2 then
        ⟨.error ⟨.random⟩, [.randomDrawn len (g.word g.drawn % 7)], g.advance⟩
      else
        ⟨.ok (Plan.due len first (g.word g.drawn)), [.randomDrawn len (g.word g.drawn % 7)],
          g.advance⟩ := by
  by_cases heven : len % 2 = 0
  · rw [if_pos heven, planOverruns_of_even heven]
  rw [if_neg heven, planOverruns, if_neg heven, Generator.nextResidue_eq, Branch.entries_eq]
  by_cases hprefix : first = some 0x61 ∧ 2 ^ 64 ≤ len + 5
  · have hover : decide (first = some prefixByte) = true ∧
        offsetLimit ≤ len + Branch.prefixA.distance := ⟨decide_eq_true hprefix.1, hprefix.2⟩
    rw [if_pos hprefix, if_pos hover]
  have hfits : ¬(decide (first = some prefixByte) = true ∧
      offsetLimit ≤ len + Branch.prefixA.distance) :=
    fun hc => hprefix ⟨of_decide_eq_true hc.1, hc.2⟩
  rw [if_neg hprefix, if_neg hfits]
  -- the prefix branch has fitted, so the draw is made and the other branch looked at
  dsimp only
  rw [Branch.entries_eq]
  by_cases hrandom : g.word g.drawn % 7 = 0 ∧ 2 ^ 64 ≤ len + 2
  · have hover : decide (g.word g.drawn % modulus = 0) = true ∧
        offsetLimit ≤ len + Branch.random.distance := ⟨decide_eq_true hrandom.1, hrandom.2⟩
    rw [if_pos hrandom, if_pos hover]
    rfl
  · have hfits : ¬(decide (g.word g.drawn % modulus = 0) = true ∧
        offsetLimit ≤ len + Branch.random.distance) :=
      fun hc => hrandom ⟨of_decide_eq_true hc.1, hc.2⟩
    rw [if_neg hrandom, if_neg hfits, Plan.due, if_neg heven]
    simp only [decide_eq_true_eq]
    rfl

/-- What is due, entry by entry. -/
theorem Plan.mem_due {len : Nat} {first : Option UInt8} {word : UInt32} {o : Overrun} :
    o ∈ Plan.due len first word ↔
      len % 2 = 1 ∧ (first = some 0x61 ∧ o = ⟨.prefixA, len + 5, 0x78⟩ ∨
        word % 7 = 0 ∧ o = ⟨.random, len + 2, 0x78⟩) := by
  by_cases heven : len % 2 = 0
  · simp [Plan.due, heven]
  · have hodd : len % 2 = 1 := Nat.mod_two_ne_zero.mp heven
    rw [Plan.due, if_neg heven, List.mem_append, List.mem_ite_nil_right, List.mem_ite_nil_right,
      List.mem_singleton, List.mem_singleton, and_iff_right hodd]

/-- Every overrun that is due writes the same byte. -/
theorem Plan.value_of_mem_due {len : Nat} {first : Option UInt8} {word : UInt32} {o : Overrun}
    (h : o ∈ Plan.due len first word) : o.value = 0x78 := by
  obtain ⟨-, ⟨-, rfl⟩ | ⟨-, rfl⟩⟩ := Plan.mem_due.mp h <;> rfl

/-- The offset of an overrun that is due is the sum of the length and the distance. -/
theorem Plan.offset_of_mem_due {len : Nat} {first : Option UInt8} {word : UInt32} {o : Overrun}
    (h : o ∈ Plan.due len first word) : o.offset = len + o.branch.distance := by
  obtain ⟨-, ⟨-, rfl⟩ | ⟨-, rfl⟩⟩ := Plan.mem_due.mp h <;> rfl

/-- Whether an overrun of some kind is due, asked of one branch after the other. -/
theorem Plan.exists_mem_due {len : Nat} {first : Option UInt8} {word : UInt32}
    {p : Overrun → Prop} :
    (∃ o ∈ Plan.due len first word, p o) ↔
      len % 2 = 1 ∧ (first = some 0x61 ∧ p ⟨.prefixA, len + 5, 0x78⟩ ∨
        word % 7 = 0 ∧ p ⟨.random, len + 2, 0x78⟩) := by
  constructor
  · intro ⟨o, ho, hp⟩
    obtain ⟨hodd, ⟨hfirst, rfl⟩ | ⟨hword, rfl⟩⟩ := Plan.mem_due.mp ho
    · exact ⟨hodd, Or.inl ⟨hfirst, hp⟩⟩
    · exact ⟨hodd, Or.inr ⟨hword, hp⟩⟩
  · intro ⟨hodd, hbranch⟩
    rcases hbranch with ⟨hfirst, hp⟩ | ⟨hword, hp⟩
    · exact ⟨_, Plan.mem_due.mpr ⟨hodd, Or.inl ⟨hfirst, rfl⟩⟩, hp⟩
    · exact ⟨_, Plan.mem_due.mpr ⟨hodd, Or.inr ⟨hword, rfl⟩⟩, hp⟩

/-- The offsets of what is due. -/
theorem Plan.exists_offset_due {len : Nat} {first : Option UInt8} {word : UInt32} {i : Nat} :
    (∃ o ∈ Plan.due len first word, o.offset = i) ↔
      len % 2 = 1 ∧ (i = len + 5 ∧ first = some 0x61 ∨ i = len + 2 ∧ word % 7 = 0) := by
  rw [Plan.exists_mem_due]
  simp only [and_comm, eq_comm]

/-- A plan that planning answers with is what is due, and all its offsets fit a machine word. -/
theorem planOverruns_inv {len : Nat} {first : Option UInt8} {g : Generator} {plan : Plan}
    (h : (planOverruns len first g).plan = .ok plan) :
    plan = Plan.due len first (g.word g.drawn) ∧ ∀ o ∈ plan, o.offset < 2 ^ 64 := by
  rw [planOverruns_eq] at h
  split_ifs at h with heven hprefix hrandom
  · obtain rfl := Except.ok.inj h
    exact ⟨by rw [Plan.due, if_pos heven], by simp⟩
  · obtain rfl := Except.ok.inj h
    refine ⟨rfl, fun o ho => ?_⟩
    obtain ⟨-, ⟨hfirst, rfl⟩ | ⟨hword, rfl⟩⟩ := Plan.mem_due.mp ho
    · exact Nat.lt_of_not_le fun hover => hprefix ⟨hfirst, hover⟩
    · exact Nat.lt_of_not_le fun hover => hrandom ⟨hword, hover⟩

/-! ### Buffers that a machine can hold -/

/-- The event that planning reports for a buffer on which no branch overflows. -/
def Event.ofPlanning (len : Nat) (word : UInt32) : Event :=
  if len % 2 = 0 then .evenLength len else .randomDrawn len (word % 7)

/-- Without an overflow, planning answers with what is due and reports one event. -/
theorem planOverruns_of_lt {len : Nat} (h : len + 5 < 2 ^ 64) (first : Option UInt8)
    (g : Generator) :
    planOverruns len first g =
      ⟨.ok (Plan.due len first (g.word g.drawn)), [.ofPlanning len (g.word g.drawn)],
        if len % 2 = 0 then g else g.advance⟩ := by
  have hprefix : ¬(first = some 0x61 ∧ 2 ^ 64 ≤ len + 5) := fun hc => absurd hc.2 (by omega)
  have hrandom : ¬(g.word g.drawn % 7 = 0 ∧ 2 ^ 64 ≤ len + 2) := fun hc => absurd hc.2 (by omega)
  rw [planOverruns_eq, if_neg hprefix, if_neg hrandom, Event.ofPlanning]
  by_cases heven : len % 2 = 0
  · rw [if_pos heven, if_pos heven, if_pos heven, Plan.due, if_pos heven]
  · rw [if_neg heven, if_neg heven, if_neg heven]

/-- An input that a machine can hold has a plan. -/
theorem exists_plan_planOverruns {len : Nat} (h : len < 2 ^ 63) (first : Option UInt8)
    (g : Generator) : ∃ plan, (planOverruns len first g).plan = .ok plan := by
  rw [planOverruns_of_lt (by omega)]
  exact ⟨_, rfl⟩

/-- Both branches fire on the input `abc` under the seed 2. -/
theorem planOverruns_abc :
    (planOverruns 3 (some 0x61) (Generator.seeded 2)).plan =
      .ok [⟨.prefixA, 8, 0x78⟩, ⟨.random, 5, 0x78⟩] := by
  have hdue : Plan.due 3 (some 0x61) ((Generator.seeded 2).word 0) =
      [⟨.prefixA, 8, 0x78⟩, ⟨.random, 5, 0x78⟩] := by decide +kernel
  rw [planOverruns_of_lt (by decide), ← hdue]
  rfl

end OverrunHarness
