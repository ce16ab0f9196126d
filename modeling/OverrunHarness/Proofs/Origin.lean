import OverrunHarness.Proofs.Planning
/-!
# Where a store comes from

The offset of a planned store is enough to tell which branch planned it and how long the input was.
Only odd lengths are planned for, so an offset has the parity that the distance of its branch has
not (`Branch.ofOffset_of_mem_due`); and with the branch, the distance can be taken off again.
Nothing is lost on the way, since an offset is the sum itself and not what is left of it in a
machine word.

`Overrun.origin` reads an offset back in this way. It does so for plans of whatever lengths
(`Overrun.origin_of_mem_due`), and that is why no two of them can meet in an offset.
-/

namespace OverrunHarness

/-- The branch that plans stores at an offset, by the parity of the offset. -/
def Branch.ofOffset (offset : Nat) : Branch := if offset % 2 = 0 then .prefixA else .random

theorem Branch.ofOffset_eq_prefixA_iff {offset : Nat} :
    Branch.ofOffset offset = .prefixA ↔ offset % 2 = 0 := by
  simp [ofOffset]

theorem Branch.ofOffset_eq_random_iff {offset : Nat} :
    Branch.ofOffset offset = .random ↔ offset % 2 = 1 := by
  simp [ofOffset]

theorem Branch.distance_pos (branch : Branch) : 0 < branch.distance := by
  cases branch <;> decide

/-- What an offset alone tells of a store: the length of the input and the overrun. -/
def Overrun.origin (offset : Nat) : Nat × Overrun :=
  let branch := Branch.ofOffset offset
  (offset - branch.distance, ⟨branch, offset, overrunByte⟩)

theorem Branch.ofOffset_of_mem_due {len : Nat} {first : Option UInt8} {word : UInt32}
    {o : Overrun} (h : o ∈ Plan.due len first word) : Branch.ofOffset o.offset = o.branch := by
  obtain ⟨hodd, ⟨-, rfl⟩ | ⟨-, rfl⟩⟩ := Plan.mem_due.mp h
  · exact if_pos (by simp only; omega)
  · exact if_neg (by simp only; omega)

/-- An overrun that is due can be read back from its offset. -/
theorem Overrun.origin_of_mem_due {len : Nat} {first : Option UInt8} {word : UInt32}
    {o : Overrun} (h : o ∈ Plan.due len first word) : Overrun.origin o.offset = (len, o) := by
  have hlen : o.offset - o.branch.distance = len := by
    rw [Plan.offset_of_mem_due h, Nat.add_sub_cancel]
  have hvalue : overrunByte = o.value := (Plan.value_of_mem_due h).symm
  rw [origin, Branch.ofOffset_of_mem_due h, hlen, hvalue]

/-- The branches that fire for one input store at different offsets. -/
theorem Plan.nodup_offset_due (len : Nat) (first : Option UInt8) (word : UInt32) :
    ((Plan.due len first word).map Overrun.offset).Nodup := by
  unfold Plan.due
  split_ifs <;> simp

/-- **An offset names its origin.** If overruns of two plans have one offset, the plans are for
inputs of one length and the overruns are the same. An offset is even if the `prefixA` branch asked
for it and odd if the random branch did. It lies behind the input and within the machine word, and
without the distance of its branch it is the length. Within a plan no offset is met twice. -/
theorem offset_identifies {n n' : UInt64} {first first' : Option UInt8} {g g' : Generator}
    {plan plan' : Plan} (planned : (planOverruns n.toNat first g).plan = .ok plan)
    (planned' : (planOverruns n'.toNat first' g').plan = .ok plan') :
    (∀ o ∈ plan, ∀ o' ∈ plan', o.offset = o'.offset → n = n' ∧ o = o') ∧
      (∀ o ∈ plan, (o.offset % 2 = 0 ↔ o.branch = .prefixA) ∧
        (o.offset % 2 = 1 ↔ o.branch = .random) ∧ o.offset = n.toNat + o.branch.distance ∧
        n.toNat < o.offset ∧ o.offset < 2 ^ 64 ∧ Overrun.origin o.offset = (n.toNat, o)) ∧
      (plan.map Overrun.offset).Nodup := by
  obtain ⟨rfl, hfits⟩ := planOverruns_inv planned
  obtain ⟨rfl, -⟩ := planOverruns_inv planned'
  refine ⟨fun o ho o' ho' hoffset => ?_, fun o ho => ?_, Plan.nodup_offset_due _ _ _⟩
  · -- both are what their common offset is read back as
    have hsame : (n.toNat, o) = (n'.toNat, o') := by
      rw [← Overrun.origin_of_mem_due ho, ← Overrun.origin_of_mem_due ho', hoffset]
    obtain ⟨hlen, ho⟩ := Prod.mk.inj hsame
    exact ⟨UInt64.toNat_inj.mp hlen, ho⟩
  · have hbranch := Branch.ofOffset_of_mem_due ho
    have hsum := Plan.offset_of_mem_due ho
    have hpast := o.branch.distance_pos
    refine ⟨?_, ?_, hsum, by omega, hfits o ho, Overrun.origin_of_mem_due ho⟩
    · rw [← hbranch, Branch.ofOffset_eq_prefixA_iff]
    · rw [← hbranch, Branch.ofOffset_eq_random_iff]

/-- Inputs of three bytes, one that begins with the prefix byte and one that does not. Their plans
meet in the offset 5, and from it and the offset 8 the length is read back. -/
theorem offset_identifies_five :
    let n : UInt64 := 3
    let n' : UInt64 := 3
    let armed := planOverruns n.toNat (some 0x61) (Generator.seeded 2)
    let other := planOverruns n'.toNat (some 0x62) (Generator.ofWords fun _ => 14)
    let o : Overrun := ⟨.prefixA, 8, 0x78⟩
    let o' : Overrun := ⟨.random, 5, 0x78⟩
    (armed.plan = .ok [o, o'] ∧ other.plan = .ok [o'] ∧ o' ∈ [o, o'] ∧ o' ∈ [o']) ∧ n = n' ∧
      Overrun.origin 8 = (3, o) ∧ Overrun.origin 5 = (3, o') ∧ [8, 5].Nodup := by
  intro n n' armed other o o'
  have harmed : armed.plan = .ok [o, o'] := planOverruns_abc
  have hdue : Plan.due 3 (some 0x62) 14 = [o'] := by decide
  have hother : other.plan = .ok [o'] := by
    rw [show other = _ from planOverruns_of_lt (by decide) _ _, ← hdue, Generator.word_ofWords]
    rfl
  have hmem : o' ∈ [o, o'] := by decide
  have hmem' : o' ∈ [o'] := by decide
  obtain ⟨hmeet, hread, hnodup⟩ := offset_identifies harmed hother
  obtain ⟨hlen, -⟩ := hmeet o' hmem o' hmem' rfl
  obtain ⟨-, -, -, -, -, horigin⟩ := hread o (by decide)
  obtain ⟨-, -, -, -, -, horigin'⟩ := hread o' hmem
  exact ⟨⟨harmed, hother, hmem, hmem'⟩, hlen, horigin, horigin', hnodup⟩

end OverrunHarness
