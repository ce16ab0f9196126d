import OverrunHarness.Event
import OverrunHarness.Random.Generator
/-!
# Plans

Which overruns an input gives rise to. Planning looks at the length of the input, its first byte
and one random draw, and touches no memory.

Design points:

* An **even length plans nothing**, and draws nothing either: the generator is left where it was.
* An odd length is tried against the `prefixA` branch first and the `random` branch second. The
  draw is made between the two, so an overflow in the first branch comes before any draw or event,
  and one in the second comes after both.
* `Planning` holds the answer together with what came before it, since an overflow undoes neither
  the events nor the draw.
-/

namespace OverrunHarness

/-- The overruns of one input, in the order in which they are made. -/
abbrev Plan := List Overrun

/-- The outcome of planning, with the events reported and the generator left behind. -/
structure Planning where
  plan : Except OffsetOverflow Plan
  events : List Event
  generator : Generator

/-- The part of a plan that one branch contributes. -/
def Branch.entries (branch : Branch) (fires : Bool) (len : Nat) : Except OffsetOverflow Plan :=
  if fires then (Overrun.beyond branch len).map fun o => [o] else .ok []

/-- Plans the overruns of a buffer of `len` bytes. The first byte is taken on trust: it need not
fit the length. -/
def planOverruns (len : Nat) (first : Option UInt8) (g : Generator) : Planning :=
  if len % 2 = 0 then ⟨.ok [], [.evenLength len], g⟩
  else
    match Branch.entries .prefixA (first = some prefixByte) len with
    | .error overflow => ⟨.error overflow, [], g⟩
    | .ok armed =>
      let (residue, rest) := g.nextResidue
      match Branch.entries .random (residue = 0) len with
      | .error overflow => ⟨.error overflow, [.randomDrawn len residue], rest⟩
      | .ok drawn => ⟨.ok (armed ++ drawn), [.randomDrawn len residue], rest⟩

/-- The plan as it is printed: a line for each overrun. -/
def Plan.print (plan : Plan) : String :=
  String.join (plan.map fun o => o.line ++ "\n")

/-- An even length plans nothing and leaves the generator alone. -/
theorem planOverruns_of_even {len : Nat} (h : len % 2 = 0) (first : Option UInt8) (g : Generator) :
    planOverruns len first g = ⟨.ok [], [.evenLength len], g⟩ := by
  simp [planOverruns, h]

end OverrunHarness
