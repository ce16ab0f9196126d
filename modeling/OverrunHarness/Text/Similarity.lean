/-!
# Similarity of words

The Jaro similarity of two words, from 0 (nothing in common) to 1 (equal). It is the mean of three
shares: of the first word and of the second that find a partner in the other, and of the partners
that stand in the same order.

A character's partner is an equal one at a distance of less than half the longer word; partners are
given out from the left, each once. The sum is made in floating point, so that a similarity close to
a threshold falls on the side where that arithmetic puts it.
-/

namespace OverrunHarness

namespace Similarity

/-- Takes the leftmost free partner of `c` at a place from `low` up to, but not including, `high`:
the places of the second word with that one taken. The list begins at place `i`. -/
def takePartner (c : Char) (low high : Nat) :
    (i : Nat) → List (Char × Bool) → Option (List (Char × Bool))
  | _, [] => none
  | i, (d, taken) :: rest =>
    if i < high ∧ low ≤ i ∧ c = d ∧ ¬taken then some ((d, true) :: rest)
    else (takePartner c low high (i + 1) rest).map ((d, taken) :: ·)

/-- The characters of the first word that find a partner, beginning at place `i`, and the places of
the second word when all are given out. -/
def partners (reach : Nat) :
    (i : Nat) → List Char → List (Char × Bool) → List Char × List (Char × Bool)
  | _, [], places => ([], places)
  | i, c :: cs, places =>
    match takePartner c (i - reach) (i + reach + 1) 0 places with
    | none => partners reach (i + 1) cs places
    | some left =>
      let (found, last) := partners reach (i + 1) cs left
      (c :: found, last)

/-- The Jaro similarity of two words. -/
def jaro (a b : List Char) : Float :=
  if a.isEmpty && b.isEmpty then 1
  else
    let reach := max a.length b.length / 2 - 1
    let (found, places) := partners reach 0 a (b.map (·, false))
    let matched := (places.filter (·.2)).map (·.1)
    let outOfOrder := ((found.zip matched).countP fun (c, d) => c ≠ d) / 2
    if found.isEmpty then 0
    else
      let share (part whole : Nat) := part.toFloat / whole.toFloat
      (share found.length a.length + share found.length b.length +
        share (found.length - outOfOrder) found.length) / 3

end Similarity

end OverrunHarness
