import OverrunHarness.Proofs.SeedText
import OverrunHarness.Proofs.Words
/-!
# Reading on

What reading a command line comes to if only success counts (`Progress.outcome`).

The reader keeps the first fault from the left and therefore looks into a seed or a path late. If
all faults are alike, **it makes no difference when a pending argument is looked into**
(`Progress.outcome_settle`). So reading is described one argument after the other, by what it does
to a progress with nothing pending.
-/

namespace OverrunHarness

section

variable {ε ε' α β : Type}

theorem toOption_bind (x : Except ε α) (f : α → Except ε β) :
    (x.bind f).toOption = x.toOption.bind fun a => (f a).toOption := by
  cases x <;> rfl

theorem toOption_eq_some_iff {x : Except ε α} {a : α} : x.toOption = some a ↔ x = .ok a := by
  cases x <;> simp [Except.toOption]

theorem toOption_mapError (x : Except ε α) (f : ε → ε') : (x.mapError f).toOption = x.toOption := by
  cases x <;> rfl

end

namespace Progress

variable {α : Type} {p q : Progress} {arg : Bytes} {args : List Bytes}
  {environmentSeed : Option Bytes}

/-- What a progress comes to with further arguments. -/
def outcome (p : Progress) (args : List Bytes) (environmentSeed : Option Bytes) :
    Option Invocation :=
  (p.read args).toOption.bind fun q => (q.finish environmentSeed).toOption

theorem outcome_nil : p.outcome [] environmentSeed = (p.finish environmentSeed).toOption := rfl

theorem outcome_separatorWord :
    p.outcome [separatorWord] environmentSeed = p.outcome [] environmentSeed := by
  rw [outcome, read, separatorWord_eq]
  rfl

theorem outcome_separatorWord_cons :
    p.outcome (separatorWord :: arg :: args) environmentSeed =
      (p.operand arg).toOption.bind fun q =>
        q.outcome (separatorWord :: args) environmentSeed := by
  have hread (q : Progress) (values : List Bytes) :
      (q.read (separatorWord :: values)).toOption = (values.foldlM operand q).toOption := by
    rw [read, separatorWord_eq]
    exact toOption_mapError _ _
  simp only [outcome, hread, List.foldlM_cons]
  cases p.operand arg <;> rfl

theorem outcome_long {name : Bytes} {value : Option Bytes}
    (h : Token.ofBytes arg = .long name value) :
    p.outcome (arg :: args) environmentSeed =
      (p.option name value).toOption.bind fun q => q.outcome args environmentSeed := by
  rw [outcome, read, h]
  dsimp only
  rw [toOption_bind, Option.bind_assoc]
  rfl

theorem outcome_short {first : UInt8} {rest : Bytes} (h : Token.ofBytes arg = .short first rest) :
    p.outcome (arg :: args) environmentSeed = none := by
  rw [outcome, read, h]
  rfl

theorem outcome_operand (hplain : ¬LooksLikeOption arg) (h : p.awaitsSeed = false) :
    p.outcome (arg :: args) environmentSeed =
      (p.operand arg).toOption.bind fun q => q.outcome args environmentSeed := by
  rw [outcome, read, Token.ofBytes_plain hplain]
  dsimp only
  rw [h, if_neg Bool.false_ne_true, toOption_bind, toOption_mapError, Option.bind_assoc]
  rfl

theorem outcome_value (hplain : ¬LooksLikeOption arg) (h : p.awaitsSeed = true) :
    p.outcome (arg :: args) environmentSeed =
      outcome { p with pending := some (.seed (some arg)) } args environmentSeed := by
  rw [outcome, read, Token.ofBytes_plain hplain]
  dsimp only
  rw [h, if_pos rfl]
  rfl

/-! ### Looking into what is pending -/

theorem takeSeed_eq_ok_iff {value : Bytes} :
    p.takeSeed value = .ok q ↔
      p.seed = none ∧ ∃ seed, SpellsSeed value seed ∧
        q = { p with seed := some seed, given := p.given ++ [.switch .seed] } := by
  rw [takeSeed]
  cases p.seed with
  | some seed => simp
  | none =>
    simp only [true_and, ← readSeed_eq_ok_iff]
    cases readSeed value with
    | error e => simp [Except.map]
    | ok seed => simp [Except.map, eq_comm]

theorem takePath_eq_ok_iff {value : Bytes} :
    p.takePath value = .ok q ↔
      value ≠ [] ∧ q = { p with path := some value, given := p.given ++ [.path] } := by
  rw [takePath]
  by_cases h : value = []
  · simp [h]
  · simp [h, eq_comm]

theorem bind_takeSeed_eq_some_iff {value : Bytes} {f : Progress → Option α} {a : α} :
    (p.takeSeed value).toOption.bind f = some a ↔
      p.seed = none ∧ ∃ seed, SpellsSeed value seed ∧
        f { p with seed := some seed, given := p.given ++ [.switch .seed] } = some a := by
  simp only [Option.bind_eq_some_iff, toOption_eq_some_iff, takeSeed_eq_ok_iff]
  constructor
  · rintro ⟨_, ⟨hnone, seed, hseed, rfl⟩, ha⟩
    exact ⟨hnone, seed, hseed, ha⟩
  · rintro ⟨hnone, seed, hseed, ha⟩
    exact ⟨_, ⟨hnone, seed, hseed, rfl⟩, ha⟩

theorem bind_takePath_eq_some_iff {value : Bytes} {f : Progress → Option α} {a : α} :
    (p.takePath value).toOption.bind f = some a ↔
      value ≠ [] ∧ f { p with path := some value, given := p.given ++ [.path] } = some a := by
  simp only [Option.bind_eq_some_iff, toOption_eq_some_iff, takePath_eq_ok_iff]
  constructor
  · rintro ⟨_, ⟨hne, rfl⟩, ha⟩
    exact ⟨hne, ha⟩
  · rintro ⟨hne, ha⟩
    exact ⟨_, ⟨hne, rfl⟩, ha⟩

theorem settle_of_pending (h : p.pending = none) : p.settle = .ok p := by
  rw [settle, h]

theorem awaitsSeed_of_pending (h : p.pending = none) : p.awaitsSeed = false := by
  rw [awaitsSeed, h]
  rfl

/-- Looking into what is pending leaves nothing pending, and a path where there was one. -/
theorem settled (h : p.settle = .ok q) : q.pending = none ∧ q.hasPath = p.hasPath := by
  rw [settle] at h
  split at h
  · rename_i hpending
    obtain rfl := Except.ok.inj h
    exact ⟨hpending, rfl⟩
  · cases h
  · rename_i value hpending
    obtain ⟨-, seed, -, rfl⟩ := takeSeed_eq_ok_iff.mp h
    exact ⟨rfl, by simp [hasPath, hpending]⟩
  · rename_i value hpending
    obtain ⟨-, rfl⟩ := takePath_eq_ok_iff.mp h
    exact ⟨rfl, by simp [hasPath, hpending]⟩

theorem settle_settled (h : p.settle = .ok q) : q.settle = .ok q :=
  settle_of_pending (settled h).1

theorem operand_settle (p : Progress) (value : Bytes) :
    (p.operand value).toOption = p.settle.toOption.bind fun q => (q.operand value).toOption := by
  cases h : p.settle with
  | error e =>
    rw [operand, h]
    split <;> rfl
  | ok q =>
    change (p.operand value).toOption = (q.operand value).toOption
    rw [operand, operand, h, settle_settled h, (settled h).2]

theorem option_settle (p : Progress) (name : Bytes) (value : Option Bytes) :
    (p.option name value).toOption =
      p.settle.toOption.bind fun q => (q.option name value).toOption := by
  cases h : p.settle with
  | error e =>
    unfold option
    rw [h]
    split <;> rfl
  | ok q =>
    change (p.option name value).toOption = (q.option name value).toOption
    unfold option
    rw [h, settle_settled h]
    split <;> rfl

theorem finish_settle (p : Progress) (environmentSeed : Option Bytes) :
    p.finish environmentSeed = p.settle.bind fun q => q.finish environmentSeed := by
  cases h : p.settle with
  | error e =>
    rw [finish, h]
    rfl
  | ok q =>
    change _ = q.finish environmentSeed
    rw [finish, finish, h, settle_settled h]

/-- **What is pending may be looked into at once**, unless it still awaits its value. -/
theorem outcome_settle (h : p.awaitsSeed = true → ∀ arg ∈ args.head?, LooksLikeOption arg) :
    p.outcome args environmentSeed =
      p.settle.toOption.bind fun q => q.outcome args environmentSeed := by
  -- whatever comes next looks into what is pending before it does anything else, if it is not
  -- itself the value that is awaited
  have hnil : p.outcome [] environmentSeed =
      p.settle.toOption.bind fun q => q.outcome [] environmentSeed := by
    rw [outcome_nil, finish_settle, toOption_bind]
    rfl
  cases args with
  | nil => exact hnil
  | cons arg args =>
    have hof := Token.of_ofBytes arg
    generalize htoken : Token.ofBytes arg = token at hof
    cases hof with
    | separator =>
      cases args with
      | nil =>
        simp only [outcome_separatorWord]
        exact hnil
      | cons value values =>
        simp only [outcome_separatorWord_cons]
        rw [operand_settle, Option.bind_assoc]
    | long name value =>
      simp only [outcome_long htoken]
      rw [option_settle, Option.bind_assoc]
    | short first rest =>
      simp only [outcome_short htoken]
      cases p.settle <;> rfl
    | plain hplain =>
      have hp : p.awaitsSeed = false :=
        Bool.eq_false_iff.mpr fun hp => hplain (h hp arg rfl)
      rw [outcome_operand hplain hp, operand_settle, Option.bind_assoc]
      cases hq : p.settle with
      | error e => rfl
      | ok q =>
        exact (outcome_operand hplain (awaitsSeed_of_pending (settled hq).1)).symm

/-! ### One argument after the other -/

/-- The value of an option is no other option, and it is there. -/
theorem outcome_awaiting (hargs : ∀ arg ∈ args.head?, LooksLikeOption arg) :
    outcome { p with pending := some (.seed none) } args environmentSeed = none := by
  rw [outcome_settle fun _ => hargs]
  rfl

/-- The last step looks for the path alone; whatever seed there is by then is handed on. -/
theorem close_eq_ok_iff (r : Progress) {inv : Invocation} :
    (match r.path with
      | none => Except.error (UsageError.missingPath r.given)
      | some path => Except.ok (Invocation.mk path ⟨r.seed, r.dryRun⟩)) = .ok inv ↔
    r.path = some inv.path ∧ r.dryRun = inv.options.dryRun ∧ inv.options.seed = r.seed := by
  obtain ⟨path, seed, dryRun⟩ := inv
  cases r.path with
  | none => simp
  | some given =>
    simp only [Except.ok.injEq, Invocation.mk.injEq, RunOptions.mk.injEq, Option.some.injEq]
    rw [and_comm (a := r.seed = seed), eq_comm (a := r.seed)]

variable (h : p.pending = none)
include h

theorem outcome_seedWord :
    p.outcome (seedWord :: args) environmentSeed =
      outcome { p with pending := some (.seed none) } args environmentSeed := by
  rw [outcome_long Token.ofBytes_seedWord]
  unfold option
  rw [Switch.ofName?_name, settle_of_pending h]
  rfl

theorem outcome_seedPrefix_append (value : Bytes) :
    p.outcome ((seedPrefix ++ value) :: args) environmentSeed =
      (p.takeSeed value).toOption.bind fun q => q.outcome args environmentSeed := by
  rw [outcome_long (Token.ofBytes_seedPrefix_append value)]
  unfold option
  rw [Switch.ofName?_name, settle_of_pending h]
  exact congrArg (Option.bind · _) (toOption_mapError _ _)

theorem outcome_dryRunWord {inv : Invocation} :
    p.outcome (dryRunWord :: args) environmentSeed = some inv ↔
      p.dryRun = false ∧
        outcome { p with dryRun := true, given := p.given ++ [.switch .dryRun] } args
          environmentSeed = some inv := by
  rw [outcome_long Token.ofBytes_dryRunWord]
  unfold option
  rw [Switch.ofName?_name, settle_of_pending h]
  cases hdry : p.dryRun <;> simp [hdry, Except.toOption]

/-- No other argument that looks like an option leads on. -/
theorem outcome_of_looksLikeOption (hlook : LooksLikeOption arg) (hsep : arg ≠ separatorWord)
    (hoption : ¬IsOption arg) :
    p.outcome (arg :: args) environmentSeed = none := by
  have hof := Token.of_ofBytes arg
  generalize htoken : Token.ofBytes arg = token at hof
  cases hof with
  | separator => exact absurd rfl hsep
  | long name value =>
    rw [outcome_long htoken]
    unfold option
    cases hs : Switch.ofName? name with
    | none => rfl
    | some s =>
      obtain rfl := Switch.ofName?_eq_some hs
      rw [settle_of_pending h]
      cases s with
      | seed =>
        cases value with
        | none => exact absurd (.inr (.inl seedWord_eq.symm)) hoption
        | some value => exact absurd (.inr (.inr ⟨value, seedPrefix_append value⟩)) hoption
      | dryRun =>
        cases value with
        | none => exact absurd (.inl dryRunWord_eq.symm) hoption
        | some value => rfl
      | help => cases value <;> rfl
      | version => cases value <;> rfl
  | short first rest => exact outcome_short htoken
  | plain hplain => exact absurd hlook hplain

/-- The value that the option for a seed awaits. -/
theorem outcome_awaiting_value (hplain : ¬LooksLikeOption arg) :
    outcome { p with pending := some (.seed none) } (arg :: args) environmentSeed =
      (p.takeSeed arg).toOption.bind fun q => q.outcome args environmentSeed := by
  have heta : { p with pending := none } = p := h ▸ rfl
  rw [outcome_value hplain (decide_eq_true rfl), outcome_settle (by simp [awaitsSeed]), settle]
  dsimp only
  rw [heta]

theorem bind_operand (arg : Bytes) (args : List Bytes) :
    ((p.operand arg).toOption.bind fun q => q.outcome args environmentSeed) =
      if p.path.isSome then none
      else (p.takePath arg).toOption.bind fun q => q.outcome args environmentSeed := by
  have heta : { p with pending := none } = p := h ▸ rfl
  have hpath : p.hasPath = p.path.isSome := by simp [hasPath, h]
  rw [operand, hpath, settle_of_pending h]
  cases p.path.isSome with
  | true => rfl
  | false =>
    change outcome { p with pending := some (.path arg) } args environmentSeed = _
    rw [outcome_settle (by simp [awaitsSeed]), settle]
    dsimp only
    rw [heta]
    rfl

/-- With nothing pending, the end is reached if there is a path and no fault in the seed of the
environment, should that be asked for. -/
theorem finish_eq_ok_iff {inv : Invocation} :
    p.finish environmentSeed = .ok inv ↔
      p.path = some inv.path ∧ p.dryRun = inv.options.dryRun ∧
        match p.seed with
        | some seed => inv.options.seed = some seed
        | none => Option.Rel SpellsSeed environmentSeed inv.options.seed := by
  rw [finish, settle_of_pending h]
  simp only [Except.bind]
  -- the seed may be one of `p` or of the environment; the end is the same for both
  cases hseed : p.seed with
  | some seed =>
    refine (close_eq_ok_iff p).trans ?_
    rw [hseed]
  | none =>
    cases environmentSeed with
    | none =>
      refine (close_eq_ok_iff p).trans ?_
      rw [hseed]
      cases inv.options.seed <;> simp
    | some text =>
      have hrel : Option.Rel SpellsSeed (some text) inv.options.seed ↔
          ∃ seed, readSeed text = .ok seed ∧ inv.options.seed = some seed := by
        simp only [readSeed_eq_ok_iff]
        cases inv.options.seed with
        | none => simp
        | some seed => simp
      dsimp only
      rw [hrel, takeSeed, hseed]
      cases readSeed text with
      | error e => simp [Except.map]
      | ok seed =>
        refine (close_eq_ok_iff { p with seed := some seed, given := _ }).trans ?_
        simp

end Progress

end OverrunHarness
