import OverrunHarness.Proofs.Planning
/-!
# Sequences of draws

One generator serves any number of calls: for a word, for a residue, for a plan. This module says
what a whole sequence of calls answers, in terms of the **stream of words** alone.

* `Call.answer` and `Call.cost` describe a call by the word that is next in the stream; they know
  nothing of generators. A plan that overflows is a call like any other: it answers with the
  overflow, and what it drew before stays drawn.
* The invariant is that a generator stays on its stream and its place grows by the cost of each
  call (`word_session`, `drawn_session`). It does not matter where in a block the place is.
* Plans for even lengths cost nothing, so they can be dropped from a sequence without anybody else
  noticing (`filter_transcript`).
-/

namespace OverrunHarness

/-- What a generator can be called for. -/
inductive Call
  /-- The next word. -/
  | value
  /-- The next word, modulo `modulus`. -/
  | residue
  /-- A plan for a buffer of `len` bytes with the given first byte. -/
  | plan (len : UInt64) (first : Option UInt8)
  deriving Repr, DecidableEq

/-- What comes of a call. -/
inductive Answer
  | value (word : UInt32)
  | residue (residue : UInt32)
  /-- A plan or an overflow, with the events that were reported. -/
  | plan (outcome : Except OffsetOverflow Plan) (events : List Event)

namespace Call

/-- Makes a call. -/
def perform : Call → Generator → Answer × Generator
  | value, g => (.value g.next.1, g.next.2)
  | residue, g => (.residue g.nextResidue.1, g.nextResidue.2)
  | plan len first, g =>
    let planning := planOverruns len.toNat first g
    (.plan planning.plan planning.events, planning.generator)

/-! ### Calls, described by the stream -/

/-- The words that a call takes off the stream. -/
def cost : Call → Nat
  | value | residue => 1
  | plan len first =>
    if len.toNat % 2 = 0 ∨ (first = some 0x61 ∧ 2 ^ 64 ≤ len.toNat + 5) then 0 else 1

/-- What comes of a call if `word` is next in the stream. -/
def answer (word : UInt32) : Call → Answer
  | value => .value word
  | residue => .residue (word % 7)
  | plan len first =>
    if len.toNat % 2 = 0 then .plan (.ok []) [.evenLength len.toNat]
    else if first = some 0x61 ∧ 2 ^ 64 ≤ len.toNat + 5 then .plan (.error ⟨.prefixA⟩) []
    else if word % 7 = 0 ∧ 2 ^ 64 ≤ len.toNat + 2 then
      .plan (.error ⟨.random⟩) [.randomDrawn len.toNat (word % 7)]
    else .plan (.ok (Plan.due len.toNat first word)) [.randomDrawn len.toNat (word % 7)]

/-- Whether a call is for the plan of an even length. -/
def isIdle : Call → Bool
  | value | residue => false
  | plan len _ => len.toNat % 2 = 0

/-- The answer to a call depends on the next word only. -/
theorem answer_perform (c : Call) (g : Generator) :
    (c.perform g).1 = c.answer (g.word g.drawn) := by
  cases c with
  | value => rw [perform, g.next_eq]; rfl
  | residue => rw [perform, g.nextResidue_eq]; rfl
  | plan len first =>
    rw [perform, planOverruns_eq, answer]
    by_cases heven : len.toNat % 2 = 0
    · rw [if_pos heven, if_pos heven]
    rw [if_neg heven, if_neg heven]
    by_cases hprefix : first = some 0x61 ∧ 2 ^ 64 ≤ len.toNat + 5
    · rw [if_pos hprefix, if_pos hprefix]
    rw [if_neg hprefix, if_neg hprefix]
    by_cases hrandom : g.word g.drawn % 7 = 0 ∧ 2 ^ 64 ≤ len.toNat + 2
    · rw [if_pos hrandom, if_pos hrandom]
    · rw [if_neg hrandom, if_neg hrandom]

/-- A call moves the generator on by one word, or not at all. -/
theorem generator_perform (c : Call) (g : Generator) :
    (c.perform g).2 = if c.cost = 0 then g else g.advance := by
  cases c with
  | value => rw [perform, g.next_eq]; rfl
  | residue => rw [perform, g.nextResidue_eq]; rfl
  | plan len first =>
    rw [perform, planOverruns_eq, cost]
    by_cases heven : len.toNat % 2 = 0
    · rw [if_pos heven, if_pos (Or.inl heven), if_pos rfl]
    rw [if_neg heven]
    by_cases hprefix : first = some 0x61 ∧ 2 ^ 64 ≤ len.toNat + 5
    · rw [if_pos hprefix, if_pos (Or.inr hprefix), if_pos rfl]
    have hdraws : ¬(len.toNat % 2 = 0 ∨ (first = some 0x61 ∧ 2 ^ 64 ≤ len.toNat + 5)) :=
      fun hc => hc.elim heven hprefix
    rw [if_neg hprefix, if_neg hdraws, if_neg Nat.one_ne_zero]
    -- the draw is made before the random branch is looked at, so an overflow there costs the same
    by_cases hrandom : g.word g.drawn % 7 = 0 ∧ 2 ^ 64 ≤ len.toNat + 2
    · rw [if_pos hrandom]
    · rw [if_neg hrandom]

theorem cost_eq_zero_or_one (c : Call) : c.cost = 0 ∨ c.cost = 1 := by
  cases c with
  | value => exact Or.inr rfl
  | residue => exact Or.inr rfl
  | plan len first =>
    rw [cost]
    split
    · exact Or.inl rfl
    · exact Or.inr rfl

theorem cost_eq_zero_of_isIdle {c : Call} (h : c.isIdle = true) : c.cost = 0 := by
  cases c with
  | value => cases h
  | residue => cases h
  | plan len first => rw [cost, if_pos (Or.inl (of_decide_eq_true h))]

@[simp] theorem word_perform (c : Call) (g : Generator) (k : Nat) :
    (c.perform g).2.word k = g.word k := by
  rw [generator_perform]
  split
  · rfl
  · exact g.word_advance k

@[simp] theorem drawn_perform (c : Call) (g : Generator) :
    (c.perform g).2.drawn = g.drawn + c.cost := by
  rw [generator_perform]
  rcases c.cost_eq_zero_or_one with h | h <;> simp [h]

end Call

/-! ### Sequences -/

/-- The words that a sequence of calls takes off the stream. -/
def consumed (calls : List Call) : Nat := (calls.map Call.cost).sum

@[simp] theorem consumed_nil : consumed [] = 0 := rfl

@[simp] theorem consumed_cons (c : Call) (calls : List Call) :
    consumed (c :: calls) = c.cost + consumed calls := rfl

namespace Generator

/-- Makes a sequence of calls. -/
def session : Generator → List Call → List Answer × Generator
  | g, [] => ([], g)
  | g, c :: calls =>
    let (answer, rest) := c.perform g
    let (answers, last) := rest.session calls
    (answer :: answers, last)

theorem session_cons (g : Generator) (c : Call) (calls : List Call) :
    g.session (c :: calls) =
      ((c.perform g).1 :: ((c.perform g).2.session calls).1, ((c.perform g).2.session calls).2) :=
  rfl

/-- A sequence of calls stays on the stream. -/
theorem word_session (g : Generator) (calls : List Call) (k : Nat) :
    (g.session calls).2.word k = g.word k := by
  induction calls generalizing g with
  | nil => rfl
  | cons c calls ih => rw [session_cons, ih, Call.word_perform]

/-- A sequence of calls takes off the stream what its calls cost. -/
theorem drawn_session (g : Generator) (calls : List Call) :
    (g.session calls).2.drawn = g.drawn + consumed calls := by
  induction calls generalizing g with
  | nil => rfl
  | cons c calls ih => rw [session_cons, ih, Call.drawn_perform, consumed_cons, Nat.add_assoc]

/-- Call `i` is answered by the word at the place that the calls before it led to. -/
theorem getElem?_session (g : Generator) (calls : List Call) (i : Nat) :
    (g.session calls).1[i]? =
      calls[i]?.map fun c => c.answer (g.word (g.drawn + consumed (calls.take i))) := by
  induction calls generalizing g i with
  | nil => rfl
  | cons c calls ih =>
    rw [session_cons]
    cases i with
    | zero =>
      rw [List.getElem?_cons_zero, List.getElem?_cons_zero, c.answer_perform]
      rfl
    | succ i =>
      rw [List.getElem?_cons_succ, List.getElem?_cons_succ, ih, List.take_succ_cons, consumed_cons,
        Call.drawn_perform, Nat.add_assoc]
      simp only [Call.word_perform]

/-- The calls of a sequence, each with what came of it. -/
def transcript (g : Generator) (calls : List Call) : List (Call × Answer) :=
  calls.zip (g.session calls).1

/-- Leaving out the plans for even lengths is the same in front of the calls and behind them. -/
theorem filter_transcript (g : Generator) (calls : List Call) :
    (g.transcript calls).filter (fun entry => !entry.1.isIdle) =
      g.transcript (calls.filter fun c => !c.isIdle) := by
  induction calls generalizing g with
  | nil => rfl
  | cons c calls ih =>
    have htail := ih (c.perform g).2
    rw [transcript] at htail
    rw [transcript, session_cons, List.zip_cons_cons]
    cases hidle : c.isIdle with
    | true =>
      have hstays : (c.perform g).2 = g := by
        rw [c.generator_perform, if_pos (Call.cost_eq_zero_of_isIdle hidle)]
      rw [List.filter_cons_of_neg (by simp [hidle]), List.filter_cons_of_neg (by simp [hidle]),
        htail, hstays]
    | false =>
      rw [List.filter_cons_of_pos (by simp [hidle]), List.filter_cons_of_pos (by simp [hidle]),
        htail]
      rfl

end Generator

/-- **What a seeded generator answers to a sequence of calls.** Each call is answered by the word
of the seed's stream at the place which the calls before it led to, and that place is the sum of
their costs. The calls other than plans for even lengths are answered as if no such plan had been
asked for. -/
theorem session_seeded (seed : UInt64) (calls : List Call) :
    let word (k : Nat) := ChaCha.wordAt (ChaCha.block (KeyExpansion.key seed) (k / 16)) k
    let g := Generator.seeded seed
    (∀ i : Nat, (g.session calls).1[i]? =
        calls[i]?.map fun c => c.answer (word (consumed (calls.take i)))) ∧
      (∀ i : Nat, (g.session (calls.take i)).2.drawn = consumed (calls.take i)) ∧
      (g.transcript calls).filter (fun entry => !entry.1.isIdle) =
        g.transcript (calls.filter fun c => !c.isIdle) := by
  intro word g
  have hstart : g.drawn = 0 := Generator.drawn_seeded seed
  refine ⟨fun i => ?_, fun i => ?_, g.filter_transcript calls⟩
  · rw [g.getElem?_session, hstart, Nat.zero_add]
    rfl
  · rw [g.drawn_session, hstart, Nat.zero_add]

end OverrunHarness
