import OverrunHarness.Proofs.Reading
/-!
# The grammar of command lines

The parts of a command line and its shape, stated on the arguments as they stand, without an order
in which they are looked into. Of the arguments in front of the separator, one that looks like an
option has to be one, an option for a seed has its value attached or behind it, and what is neither
option nor value is an operand. Behind the separator there are operands only.

The parts are computed from the left, with a flag for an option that still awaits its value. That
the shape needs no such flag is `shaped_iff`; that no value gets lost is `length_seedTexts`.
-/

namespace OverrunHarness

namespace CommandLine

/-! ### The parts of a command line -/

/-- The arguments in front of the separator. -/
def front (args : List Bytes) : List Bytes := args.takeWhile (· ≠ separatorWord)

/-- The arguments behind the separator. -/
def behind (args : List Bytes) : List Bytes := (args.dropWhile (· ≠ separatorWord)).tail

/-- The arguments that are neither options nor values of one, given whether the first of them
follows an option that awaits its value. -/
def plainOperands : (awaited : Bool) → List Bytes → List Bytes
  | _, [] => []
  | awaited, arg :: args =>
    if LooksLikeOption arg ∨ awaited then plainOperands (arg = seedWord) args
    else arg :: plainOperands (arg = seedWord) args

/-- The operands: arguments in front of the separator that are neither options nor values of one,
and all arguments behind it. -/
def operands (args : List Bytes) (awaited : Bool := false) : List Bytes :=
  plainOperands awaited (front args) ++ behind args

/-- The values of options for a seed, given whether the first argument follows an option that
awaits its value. -/
def seedValues : (awaited : Bool) → List Bytes → List Bytes
  | _, [] => []
  | awaited, arg :: args =>
    if awaited then arg :: seedValues (arg = seedWord) args
    else if seedPrefix <+: arg then arg.drop seedPrefix.length :: seedValues (arg = seedWord) args
    else seedValues (arg = seedWord) args

/-- The texts that are given for the seed, in order. -/
def seedTexts (args : List Bytes) (awaited : Bool := false) : List Bytes :=
  seedValues awaited (front args)

/-- The text of the seed: the one given as an option or else the one of the environment. -/
def seedText (args : List Bytes) (environmentSeed : Option Bytes) : Option Bytes :=
  (seedTexts args).head?.or environmentSeed

/-! ### How the parts follow the arguments -/

section

variable {arg : Bytes} {args : List Bytes} {awaited : Bool}

@[simp] theorem front_nil : front [] = [] := rfl

@[simp] theorem front_separatorWord : front (separatorWord :: args) = [] := by simp [front]

theorem front_cons (h : arg ≠ separatorWord) : front (arg :: args) = arg :: front args := by
  simp [front, h]

@[simp] theorem operands_nil : operands [] awaited = [] := rfl

@[simp] theorem operands_separatorWord : operands (separatorWord :: args) awaited = args := by
  simp [operands, behind, plainOperands]

theorem operands_cons (h : arg ≠ separatorWord) :
    operands (arg :: args) awaited =
      (if LooksLikeOption arg ∨ awaited then [] else [arg]) ++ operands args (arg = seedWord) := by
  have hbehind : behind (arg :: args) = behind args := by simp [behind, h]
  rw [operands, operands, front_cons h, hbehind, plainOperands]
  split <;> rfl

@[simp] theorem seedTexts_nil : seedTexts [] awaited = [] := rfl

@[simp] theorem seedTexts_separatorWord : seedTexts (separatorWord :: args) awaited = [] := by
  simp [seedTexts, seedValues]

theorem seedTexts_cons (h : arg ≠ separatorWord) :
    seedTexts (arg :: args) awaited =
      (if awaited then [arg]
        else if seedPrefix <+: arg then [arg.drop seedPrefix.length] else []) ++
        seedTexts args (arg = seedWord) := by
  rw [seedTexts, seedTexts, front_cons h, seedValues]
  split
  · rfl
  · split <;> rfl

/-- Whether every argument in front of the separator that looks like an option is one, and every
option for a seed has its value. -/
def Shaped : (awaited : Bool) → List Bytes → Prop
  | awaited, [] => awaited = false
  | awaited, arg :: args =>
    if LooksLikeOption arg then
      awaited = false ∧ (arg ≠ separatorWord → IsOption arg ∧ Shaped (arg = seedWord) args)
    else Shaped false args

theorem shaped_separatorWord : Shaped awaited (separatorWord :: args) ↔ awaited = false := by
  rw [Shaped, if_pos looksLikeOption_separatorWord]
  simp

theorem shaped_cons_of_looksLikeOption (h : LooksLikeOption arg) (hsep : arg ≠ separatorWord) :
    Shaped awaited (arg :: args) ↔
      awaited = false ∧ IsOption arg ∧ Shaped (arg = seedWord) args := by
  rw [Shaped, if_pos h]
  simp [hsep]

/-- Where a value is awaited, the shape has no option. -/
theorem awaited_eq_false (h : LooksLikeOption arg) (hshaped : Shaped awaited (arg :: args)) :
    awaited = false := by
  rw [Shaped, if_pos h] at hshaped
  exact hshaped.1

theorem shaped_cons_of_not_looksLikeOption (h : ¬LooksLikeOption arg) :
    Shaped awaited (arg :: args) ↔ Shaped false args := by
  rw [Shaped, if_neg h]

/-- Whether the first argument is there and may be the value of an option. -/
def ValueFollows (args : List Bytes) : Prop := ∃ value ∈ args.head?, ¬LooksLikeOption value

/-- Whether every option in front of the separator that awaits a value is followed by one. -/
def Valued (args : List Bytes) : Prop :=
  ∀ before after, args = before ++ seedWord :: after → separatorWord ∉ before → ValueFollows after

theorem valued_separatorWord : Valued (separatorWord :: args) := by
  intro before after heq hbefore
  cases before with
  | nil => exact absurd (List.cons.inj heq).1 (by decide)
  | cons first before =>
    obtain ⟨rfl, -⟩ := List.cons.inj heq
    exact absurd List.mem_cons_self hbefore

theorem valued_cons (h : arg ≠ separatorWord) :
    Valued (arg :: args) ↔ (arg = seedWord → ValueFollows args) ∧ Valued args := by
  constructor
  · intro hvalued
    refine ⟨?_, fun before after heq hbefore => ?_⟩
    · rintro rfl
      exact hvalued [] args rfl List.not_mem_nil
    · refine hvalued (arg :: before) after (congrArg (arg :: ·) heq) fun hmem => ?_
      obtain hmem | hmem := List.mem_cons.mp hmem
      · exact h hmem.symm
      · exact hbefore hmem
  · rintro ⟨hfirst, hrest⟩ before after heq hbefore
    cases before with
    | nil =>
      obtain ⟨harg, rfl⟩ := List.cons.inj heq
      exact hfirst harg
    | cons first before =>
      obtain ⟨-, rfl⟩ := List.cons.inj heq
      exact hrest before after rfl fun hmem => hbefore (List.mem_cons_of_mem _ hmem)

/-- The shape, said of the arguments where they stand. -/
theorem shaped_iff :
    Shaped awaited args ↔
      (∀ arg ∈ front args, LooksLikeOption arg → IsOption arg) ∧ Valued args ∧
        (awaited = true → ValueFollows args) := by
  induction args generalizing awaited with
  | nil => simp [Shaped, Valued, ValueFollows]
  | cons arg args ih =>
    by_cases hlook : LooksLikeOption arg
    · have hfirst : (awaited = true → ValueFollows (arg :: args)) ↔ awaited = false := by
        simp [ValueFollows, hlook]
      -- the separator looks like an option, too, but ends the part that has a shape
      by_cases hsep : arg = separatorWord
      · rw [hsep] at hfirst ⊢
        rw [shaped_separatorWord, hfirst, front_separatorWord]
        simp [valued_separatorWord]
      · rw [shaped_cons_of_looksLikeOption hlook hsep, hfirst, front_cons hsep,
          List.forall_mem_cons, valued_cons hsep, ih, decide_eq_true_eq]
        constructor
        · rintro ⟨hawaited, hoption, hoptions, hvalued, hvalue⟩
          exact ⟨⟨fun _ => hoption, hoptions⟩, ⟨hvalue, hvalued⟩, hawaited⟩
        · rintro ⟨⟨hoption, hoptions⟩, ⟨hvalue, hvalued⟩, hawaited⟩
          exact ⟨hawaited, hoption hlook, hoptions, hvalued, hvalue⟩
    · obtain ⟨hsep, -, hseed, -⟩ := words_of_not_looksLikeOption hlook
      have hfirst : ValueFollows (arg :: args) := ⟨arg, rfl, hlook⟩
      rw [shaped_cons_of_not_looksLikeOption hlook, front_cons hsep, List.forall_mem_cons,
        valued_cons hsep, ih]
      simp [hlook, hseed, hfirst]

/-- In what has the right shape, every option for a seed has a value of its own. -/
theorem length_seedTexts (h : Shaped awaited args) :
    (seedTexts args awaited).length =
      (front args).countP (fun arg => IsSeedOption arg) + awaited.toNat := by
  induction args generalizing awaited with
  | nil =>
    obtain rfl : awaited = false := h
    rfl
  | cons arg args ih =>
    by_cases hlook : LooksLikeOption arg
    · by_cases hsep : arg = separatorWord
      · subst hsep
        obtain rfl := shaped_separatorWord.mp h
        simp
      · obtain ⟨rfl, -, h⟩ := (shaped_cons_of_looksLikeOption hlook hsep).mp h
        rw [seedTexts_cons hsep, front_cons hsep, List.length_append, ih h, List.countP_cons]
        -- an option for a seed with none attached owes its value to the next argument
        by_cases hseed : arg = seedWord
        · have hprefix : ¬seedPrefix <+: seedWord := by decide
          simp [IsSeedOption, hseed, hprefix]
        · by_cases hprefix : seedPrefix <+: arg <;> simp [IsSeedOption, hseed, hprefix]
          omega
    · -- the argument is a value if one is awaited, and otherwise an operand
      obtain ⟨hsep, -, hseed, hprefix⟩ := words_of_not_looksLikeOption hlook
      have hnext := ih ((shaped_cons_of_not_looksLikeOption hlook).mp h)
      rw [seedTexts_cons hsep, front_cons hsep, List.length_append, decide_eq_false hseed, hnext,
        List.countP_cons]
      cases awaited <;> simp [IsSeedOption, hseed, hprefix]
      omega

end

end CommandLine

end OverrunHarness
