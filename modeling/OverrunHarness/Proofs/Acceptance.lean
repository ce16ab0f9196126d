import Mathlib.Tactic.MkIffOfInductiveProp
import OverrunHarness.Proofs.Grammar
/-!
# Command lines that are understood

Reading accepts exactly the grammar (`Invocation.read_eq_ok_iff`), and where it does not, it ends
with an error unless help or the version was asked for (`Invocation.read_eq_error`).

The first rests on an invariant, `Progress.Completes`: what was read so far and what the rest of
the arguments holds make up an invocation. Each argument in front of the rest keeps it, one law for
each kind of argument.
-/

namespace OverrunHarness

open CommandLine

/-! ### What was read so far and what is still to come -/

/-- Whether an option that was given or not, and the number of times it is still given, amount to
its being given. -/
def GivesSwitch (before : Bool) (times : Nat) (after : Bool) : Prop :=
  before.toNat + times = after.toNat

theorem givesSwitch_zero {before after : Bool} : GivesSwitch before 0 after ↔ before = after := by
  cases before <;> cases after <;> simp [GivesSwitch]

theorem givesSwitch_succ {before after : Bool} {n : Nat} :
    GivesSwitch before (n + 1) after ↔ before = false ∧ GivesSwitch true n after := by
  cases before <;> cases after <;> simp [GivesSwitch]

/-- Whether the seed that was read, the texts that are still given for it and the environment
amount to a seed. -/
def GivesSeed (before : Option UInt64) (texts : List Bytes) (environmentSeed : Option Bytes)
    (after : Option UInt64) : Prop :=
  match before with
  | some seed => texts = [] ∧ after = some seed
  | none => texts.length ≤ 1 ∧ Option.Rel SpellsSeed (texts.head?.or environmentSeed) after

theorem givesSeed_nil {before after : Option UInt64} {environmentSeed : Option Bytes} :
    GivesSeed before [] environmentSeed after ↔
      match before with
      | some seed => after = some seed
      | none => Option.Rel SpellsSeed environmentSeed after := by
  cases before <;> simp [GivesSeed]

theorem givesSeed_cons {before after : Option UInt64} {text : Bytes} {texts : List Bytes}
    {environmentSeed : Option Bytes} :
    GivesSeed before (text :: texts) environmentSeed after ↔
      before = none ∧ ∃ seed, SpellsSeed text seed ∧
        GivesSeed (some seed) texts environmentSeed after := by
  cases before with
  | some seed => simp [GivesSeed]
  | none =>
    constructor
    · rintro ⟨hlength, hrel⟩
      obtain rfl : texts = [] := by simpa using hlength
      cases hrel with
      | some hseed => exact ⟨rfl, _, hseed, rfl, rfl⟩
    · rintro ⟨-, seed, hseed, rfl, rfl⟩
      exact ⟨Nat.le_refl 1, .some hseed⟩

/-- Whether the path that was read and the operands still to come amount to a path. -/
def GivesPath (before : Option Bytes) (operands : List Bytes) (after : Bytes) : Prop :=
  before.toList ++ operands = [after] ∧ [] ∉ operands

theorem givesPath_nil {before : Option Bytes} {after : Bytes} :
    GivesPath before [] after ↔ before = some after := by
  cases before <;> simp [GivesPath]

theorem givesPath_cons {before : Option Bytes} {operand after : Bytes} {operands : List Bytes} :
    GivesPath before (operand :: operands) after ↔
      before = none ∧ operand ≠ [] ∧ GivesPath (some operand) operands after := by
  cases before with
  | some path => simp [GivesPath]
  | none =>
    simp only [GivesPath, Option.toList_none, Option.toList_some, List.nil_append,
      List.singleton_append, List.mem_cons, not_or, true_and]
    constructor
    · rintro ⟨hpath, hne, hrest⟩
      exact ⟨fun h => hne h.symm, hpath, hrest⟩
    · rintro ⟨hne, hpath, hrest⟩
      exact ⟨hpath, fun h => hne h.symm, hrest⟩

namespace Progress

variable {p : Progress} {arg : Bytes} {args : List Bytes} {environmentSeed : Option Bytes}
  {inv : Invocation} {awaited : Bool}

/-- Whether a progress and the arguments behind it make up an invocation. The progress may stand
behind an option that awaits its value. -/
@[mk_iff]
structure Completes (p : Progress) (awaited : Bool) (args : List Bytes)
    (environmentSeed : Option Bytes) (inv : Invocation) : Prop where
  shaped : Shaped awaited args
  dryRun : GivesSwitch p.dryRun ((front args).count dryRunWord) inv.options.dryRun
  seed : GivesSeed p.seed (seedTexts args awaited) environmentSeed inv.options.seed
  path : GivesPath p.path (operands args awaited) inv.path

/-- A text for the seed goes into the progress. -/
theorem completes_seed {value : Bytes} (given : List Argument) :
    (Shaped false args ∧ GivesSwitch p.dryRun ((front args).count dryRunWord) inv.options.dryRun ∧
        GivesSeed p.seed (value :: seedTexts args) environmentSeed inv.options.seed ∧
        GivesPath p.path (operands args) inv.path) ↔
      p.seed = none ∧ ∃ seed, SpellsSeed value seed ∧
        Completes { p with seed := some seed, given := given } false args environmentSeed inv := by
  rw [givesSeed_cons]
  constructor
  · rintro ⟨hshaped, hdry, ⟨hfirst, seed, hvalue, hseed⟩, hpath⟩
    exact ⟨hfirst, seed, hvalue, hshaped, hdry, hseed, hpath⟩
  · rintro ⟨hfirst, seed, hvalue, hshaped, hdry, hseed, hpath⟩
    exact ⟨hshaped, hdry, ⟨hfirst, seed, hvalue, hseed⟩, hpath⟩

/-- An option in front is no operand; it may be a dry run, a seed or in want of a seed. -/
theorem completes_of_isOption (h : IsOption arg) :
    p.Completes false (arg :: args) environmentSeed inv ↔
      Shaped (arg = seedWord) args ∧
        GivesSwitch p.dryRun ((front args).count dryRunWord + if arg = dryRunWord then 1 else 0)
          inv.options.dryRun ∧
        GivesSeed p.seed
          ((if seedPrefix <+: arg then [arg.drop seedPrefix.length] else []) ++
            seedTexts args (arg = seedWord)) environmentSeed inv.options.seed ∧
        GivesPath p.path (operands args (arg = seedWord)) inv.path := by
  have hlook := looksLikeOption_of_isOption h
  have hsep := isOption_ne_separatorWord h
  rw [completes_iff, shaped_cons_of_looksLikeOption hlook hsep, and_iff_right rfl, and_iff_right h,
    front_cons hsep, List.count_cons, seedTexts_cons hsep, if_neg Bool.false_ne_true,
    operands_cons hsep, if_pos (Or.inl hlook), List.nil_append]
  simp

theorem completes_dryRunWord (given : List Argument) :
    p.Completes false (dryRunWord :: args) environmentSeed inv ↔
      p.dryRun = false ∧
        Completes { p with dryRun := true, given := given } false args environmentSeed inv := by
  rw [completes_of_isOption (Or.inl rfl), completes_iff, if_pos rfl, givesSwitch_succ,
    if_neg (by decide), decide_eq_false (by decide), List.nil_append]
  exact ⟨fun ⟨hshaped, ⟨hfirst, hdry⟩, hrest⟩ => ⟨hfirst, hshaped, hdry, hrest⟩,
    fun ⟨hfirst, hshaped, hdry, hrest⟩ => ⟨hshaped, ⟨hfirst, hdry⟩, hrest⟩⟩

theorem completes_seedWord :
    p.Completes false (seedWord :: args) environmentSeed inv ↔
      p.Completes true args environmentSeed inv := by
  rw [completes_of_isOption (Or.inr (Or.inl rfl)), completes_iff, if_neg (by decide),
    if_neg (by decide), decide_eq_true rfl, List.nil_append, Nat.add_zero]

theorem completes_seedPrefix_append {value : Bytes} (given : List Argument) :
    p.Completes false ((seedPrefix ++ value) :: args) environmentSeed inv ↔
      p.seed = none ∧ ∃ seed, SpellsSeed value seed ∧
        Completes { p with seed := some seed, given := given } false args environmentSeed inv := by
  -- none of the other words begins like this, so which law is meant is decided by the prefix
  have hprefix : seedPrefix <+: seedPrefix ++ value := List.prefix_append _ _
  have hdry : seedPrefix ++ value ≠ dryRunWord := fun h =>
    absurd (h ▸ hprefix : seedPrefix <+: dryRunWord) (by decide)
  have hseed : seedPrefix ++ value ≠ seedWord := fun h =>
    absurd (h ▸ hprefix : seedPrefix <+: seedWord) (by decide)
  rw [completes_of_isOption (Or.inr (Or.inr hprefix)), if_pos hprefix, if_neg hdry,
    decide_eq_false hseed, List.drop_left, List.singleton_append, Nat.add_zero]
  exact completes_seed given

/-- An argument that does not look like an option is a seed if one is awaited, or an operand. -/
theorem completes_of_not_looksLikeOption (h : ¬LooksLikeOption arg) :
    p.Completes awaited (arg :: args) environmentSeed inv ↔
      Shaped false args ∧
        GivesSwitch p.dryRun ((front args).count dryRunWord) inv.options.dryRun ∧
        GivesSeed p.seed ((if awaited then [arg] else []) ++ seedTexts args) environmentSeed
          inv.options.seed ∧
        GivesPath p.path ((if awaited then [] else [arg]) ++ operands args) inv.path := by
  obtain ⟨hsep, hdry, hseed, hprefix⟩ := words_of_not_looksLikeOption h
  rw [completes_iff, shaped_cons_of_not_looksLikeOption h, front_cons hsep,
    List.count_cons_of_ne hdry,
    seedTexts_cons hsep, operands_cons hsep, if_neg hprefix, decide_eq_false hseed]
  cases awaited <;> simp [h]

theorem completes_awaited (given : List Argument) (h : ¬LooksLikeOption arg) :
    p.Completes true (arg :: args) environmentSeed inv ↔
      p.seed = none ∧ ∃ seed, SpellsSeed arg seed ∧
        Completes { p with seed := some seed, given := given } false args environmentSeed inv := by
  rw [completes_of_not_looksLikeOption h, if_pos rfl, if_pos rfl, List.singleton_append,
    List.nil_append]
  exact completes_seed given

theorem completes_operand (given : List Argument) (h : ¬LooksLikeOption arg) :
    p.Completes false (arg :: args) environmentSeed inv ↔
      p.path = none ∧ arg ≠ [] ∧
        Completes { p with path := some arg, given := given } false args environmentSeed inv := by
  rw [completes_of_not_looksLikeOption h, if_neg Bool.false_ne_true, if_neg Bool.false_ne_true,
    List.singleton_append, List.nil_append, givesPath_cons]
  constructor
  · rintro ⟨hshaped, hdry, hseed, hfirst, hne, hpath⟩
    exact ⟨hfirst, hne, hshaped, hdry, hseed, hpath⟩
  · rintro ⟨hfirst, hne, hshaped, hdry, hseed, hpath⟩
    exact ⟨hshaped, hdry, hseed, hfirst, hne, hpath⟩

theorem completes_separatorWord :
    p.Completes false (separatorWord :: args) environmentSeed inv ↔
      GivesSwitch p.dryRun 0 inv.options.dryRun ∧
        GivesSeed p.seed [] environmentSeed inv.options.seed ∧ GivesPath p.path args inv.path := by
  rw [completes_iff, shaped_separatorWord, and_iff_right rfl, front_separatorWord, List.count_nil,
    seedTexts_separatorWord, operands_separatorWord]

theorem completes_nil :
    p.Completes false [] environmentSeed inv ↔
      p.Completes false [separatorWord] environmentSeed inv := by
  rw [completes_separatorWord, completes_iff, front_nil, List.count_nil, seedTexts_nil,
    operands_nil, Shaped]
  exact and_iff_right rfl

/-! ### The invariant of reading -/

theorem outcome_nil_eq_some_iff (h : p.pending = none) :
    p.outcome [] environmentSeed = some inv ↔ p.Completes false [] environmentSeed inv := by
  rw [outcome_nil, toOption_eq_some_iff, finish_eq_ok_iff h, completes_nil, completes_separatorWord,
    givesSwitch_zero, givesSeed_nil, givesPath_nil]
  exact ⟨fun ⟨hpath, hdry, hseed⟩ => ⟨hdry, hseed, hpath⟩,
    fun ⟨hdry, hseed, hpath⟩ => ⟨hpath, hdry, hseed⟩⟩

/-- With nothing pending, an operand becomes the path. -/
theorem bind_operand_eq_some_iff (h : p.pending = none) :
    ((p.operand arg).toOption.bind fun q => q.outcome args environmentSeed) = some inv ↔
      p.path = none ∧ arg ≠ [] ∧
        outcome { p with path := some arg, given := p.given ++ [.path] } args environmentSeed =
          some inv := by
  rw [bind_operand h]
  cases hpath : p.path with
  | some path => simp
  | none => exact bind_takePath_eq_some_iff.trans (and_iff_right rfl).symm

theorem outcome_separatorWord_eq_some_iff (h : p.pending = none) :
    p.outcome (separatorWord :: args) environmentSeed = some inv ↔
      p.Completes false (separatorWord :: args) environmentSeed inv := by
  induction args generalizing p with
  | nil => rw [outcome_separatorWord, outcome_nil_eq_some_iff h, completes_nil]
  | cons arg args ih =>
    -- the separator moves past the operand, which makes the rest a case of the hypothesis
    have hnext := @ih { p with path := some arg, given := p.given ++ [.path] } h
    rw [outcome_separatorWord_cons, bind_operand_eq_some_iff h, hnext, completes_separatorWord,
      completes_separatorWord, givesPath_cons]
    exact ⟨fun ⟨hfirst, hne, hdry, hseed, hpath⟩ => ⟨hdry, hseed, hfirst, hne, hpath⟩,
      fun ⟨hdry, hseed, hfirst, hne, hpath⟩ => ⟨hfirst, hne, hdry, hseed, hpath⟩⟩

/-- A progress as it is behind an option that awaits its value, or as it is. -/
def expecting (p : Progress) (awaited : Bool) : Progress :=
  if awaited then { p with pending := some (.seed none) } else p

@[simp] theorem expecting_false : p.expecting false = p := rfl

/-- What looks like an option does not stand in the place of a value, and neither does nothing. -/
theorem outcome_expecting_true (hargs : ∀ arg ∈ args.head?, LooksLikeOption arg) :
    (p.expecting true).outcome args environmentSeed = some inv ↔
      p.Completes true args environmentSeed inv := by
  refine iff_of_false ?_ fun hp => ?_
  · rw [expecting, if_pos rfl, outcome_awaiting hargs]
    exact (Option.some_ne_none inv).symm
  · cases args with
    | nil => exact Bool.noConfusion hp.shaped
    | cons arg args => exact Bool.noConfusion (awaited_eq_false (hargs arg rfl) hp.shaped)

section

-- the arguments behind the first one
variable (ih : ∀ (q : Progress) (awaited : Bool), q.pending = none →
  ((q.expecting awaited).outcome args environmentSeed = some inv ↔
    q.Completes awaited args environmentSeed inv))
include ih

theorem outcome_cons_of_looksLikeOption (h : p.pending = none) (hlook : LooksLikeOption arg)
    (hsep : arg ≠ separatorWord) :
    p.outcome (arg :: args) environmentSeed = some inv ↔
      p.Completes false (arg :: args) environmentSeed inv := by
  by_cases hoption : IsOption arg
  · rcases hoption with rfl | rfl | ⟨value, rfl⟩
    · rw [outcome_dryRunWord h, completes_dryRunWord _]
      exact and_congr_right fun _ => ih _ false h
    · rw [outcome_seedWord h, completes_seedWord]
      exact ih p true h
    · rw [outcome_seedPrefix_append h, bind_takeSeed_eq_some_iff, completes_seedPrefix_append _]
      exact and_congr_right fun _ => exists_congr fun _ => and_congr_right fun _ => ih _ false h
  · -- it looks like an option and is none
    rw [outcome_of_looksLikeOption h hlook hsep hoption]
    refine iff_of_false (Option.some_ne_none inv).symm fun hp => hoption ?_
    exact ((shaped_cons_of_looksLikeOption hlook hsep).mp hp.shaped).2.1

theorem outcome_cons_of_not_looksLikeOption (h : p.pending = none) (hlook : ¬LooksLikeOption arg) :
    (p.expecting awaited).outcome (arg :: args) environmentSeed = some inv ↔
      p.Completes awaited (arg :: args) environmentSeed inv := by
  cases awaited with
  | true =>
    rw [expecting, if_pos rfl, outcome_awaiting_value h hlook, bind_takeSeed_eq_some_iff,
      completes_awaited _ hlook]
    exact and_congr_right fun _ => exists_congr fun _ => and_congr_right fun _ => ih _ false h
  | false =>
    rw [expecting_false, outcome_operand hlook (awaitsSeed_of_pending h),
      bind_operand_eq_some_iff h, completes_operand _ hlook]
    exact and_congr_right fun _ => and_congr_right fun _ => ih _ false h

end

/-- **The invariant of reading.** A progress leads to an invocation if the arguments behind it
complete it to that invocation. -/
theorem outcome_eq_some_iff (p : Progress) (awaited : Bool) (h : p.pending = none) :
    (p.expecting awaited).outcome args environmentSeed = some inv ↔
      p.Completes awaited args environmentSeed inv := by
  induction args generalizing p awaited with
  | nil =>
    cases awaited with
    | true => exact outcome_expecting_true (by simp)
    | false => exact outcome_nil_eq_some_iff h
  | cons arg args ih =>
    by_cases hlook : LooksLikeOption arg
    · cases awaited with
      | true => exact outcome_expecting_true (by simpa using hlook)
      | false =>
        by_cases hsep : arg = separatorWord
        · rw [hsep]
          exact outcome_separatorWord_eq_some_iff h
        · exact outcome_cons_of_looksLikeOption ih h hlook hsep
    · exact outcome_cons_of_not_looksLikeOption ih h hlook

end Progress

/-! ### The grammar -/

section

variable {args : List Bytes} {environmentSeed : Option Bytes} {inv : Invocation}

theorem Invocation.read_eq_ok_iff_completes :
    read args environmentSeed = .ok inv ↔
      Progress.Completes {} false args environmentSeed inv := by
  have houtcome : (read args environmentSeed).toOption =
      Progress.outcome {} args environmentSeed := by
    simp only [read, toOption_bind, toOption_mapError]
    rfl
  rw [← toOption_eq_some_iff, houtcome]
  exact Progress.outcome_eq_some_iff {} false rfl

/-- A command line is read as an invocation exactly if it has the right shape and its parts are
those of the invocation. -/
theorem Invocation.read_eq_ok_iff :
    read args environmentSeed = .ok inv ↔
      Shaped false args ∧ (front args).count dryRunWord = inv.options.dryRun.toNat ∧
        (seedTexts args).length ≤ 1 ∧
        Option.Rel SpellsSeed (seedText args environmentSeed) inv.options.seed ∧
        operands args = [inv.path] ∧ inv.path ≠ [] := by
  rw [read_eq_ok_iff_completes, Progress.completes_iff]
  simp only [GivesSwitch, GivesSeed, GivesPath, Bool.toNat_false, Nat.zero_add, Option.toList_none,
    List.nil_append]
  constructor
  · rintro ⟨hshaped, hdry, ⟨hlength, hseed⟩, hpath, hne⟩
    refine ⟨hshaped, hdry, hlength, hseed, hpath, fun hnil => ?_⟩
    rw [hpath, hnil] at hne
    exact hne List.mem_cons_self
  · rintro ⟨hshaped, hdry, hlength, hseed, hpath, hne⟩
    refine ⟨hshaped, hdry, ⟨hlength, hseed⟩, hpath, ?_⟩
    rw [hpath, List.mem_singleton]
    exact hne.symm

end

/-! ### Calls for help -/

/-- Whether an argument begins like a call for help or for the version. -/
def AsksForHelp (arg : Bytes) : Prop :=
  ∃ word ∈ ["-h", "-V", "--help", "--version"], Utf8.encode word <+: arg

instance (arg : Bytes) : Decidable (AsksForHelp arg) :=
  inferInstanceAs (Decidable (∃ word ∈ _, _))

namespace Progress

variable {p q : Progress} {args : List Bytes} {stop : Stop}

theorem exists_usage_of_mapError {α : Type} {x : Except UsageError α}
    (h : x.mapError Stop.usage = .error stop) : ∃ e, stop = .usage e := by
  cases x with
  | error e => exact ⟨e, (Except.error.inj h).symm⟩
  | ok a => cases h

theorem option_eq_error {name : Bytes} {value : Option Bytes}
    (h : p.option name value = .error stop) :
    (∃ e, stop = .usage e) ∨ AsksForHelp (dash :: dash :: name) := by
  cases hs : Switch.ofName? name with
  | none =>
    unfold option at h
    rw [hs] at h
    exact .inl ⟨_, (Except.error.inj h).symm⟩
  | some s =>
    obtain rfl := Switch.ofName?_eq_some hs
    unfold option at h
    rw [hs] at h
    cases s with
    | help => exact .inr ⟨"--help", by simp, by decide⟩
    | version => exact .inr ⟨"--version", by simp, by decide⟩
    | seed => cases value <;> exact .inl (exists_usage_of_mapError h)
    | dryRun =>
      cases value with
      | some value => exact .inl ⟨_, (Except.error.inj h).symm⟩
      | none =>
        cases hsettle : p.settle with
        | error e =>
          rw [hsettle] at h
          exact .inl ⟨_, (Except.error.inj h).symm⟩
        | ok q =>
          rw [hsettle] at h
          dsimp only at h
          split at h
          · exact .inl ⟨_, (Except.error.inj h).symm⟩
          · cases h

theorem letters_eq (p : Progress) (first : UInt8) (rest : Bytes) :
    (∃ e, p.letters first rest = .usage e) ∨ AsksForHelp (dash :: first :: rest) := by
  rw [letters]
  cases hnext : (Utf8.next first rest).1 with
  | none => exact .inl ⟨_, rfl⟩
  | some letter =>
    dsimp only
    by_cases hletter : letter = 'h' ∨ letter = 'V'
    · refine .inr ?_
      rw [Utf8.eq_utf8EncodeChar_append_of_next (Prod.ext hnext rfl)]
      obtain rfl | rfl := hletter
      · exact ⟨"-h", by simp, _, rfl⟩
      · exact ⟨"-V", by simp, _, rfl⟩
    · rw [if_neg hletter]
      exact .inl ⟨_, rfl⟩

/-- Reading stops with an error unless it is asked for help. -/
theorem read_eq_error (h : p.read args = .error stop) :
    (∃ e, stop = .usage e) ∨ ∃ arg ∈ front args, AsksForHelp arg := by
  induction args generalizing p with
  | nil => cases h
  | cons arg args ih =>
    have hsep : Token.ofBytes separatorWord = .separator := by decide
    by_cases harg : arg = separatorWord
    · rw [harg, read, hsep] at h
      exact .inl (exists_usage_of_mapError h)
    rw [front_cons harg]
    simp only [List.mem_cons, exists_eq_or_imp]
    -- what goes on behind the argument is the induction's
    have hrest {x : Except Stop Progress} (hx : x.bind (read · args) = .error stop)
        (hfirst : x = .error stop → (∃ e, stop = .usage e) ∨ AsksForHelp arg) :
        (∃ e, stop = .usage e) ∨ AsksForHelp arg ∨ ∃ arg ∈ front args, AsksForHelp arg := by
      cases x with
      | error stop' =>
        obtain rfl := Except.error.inj hx
        exact (hfirst rfl).imp_right .inl
      | ok q => exact (ih hx).imp_right .inr
    have hof := Token.of_ofBytes arg
    rw [read] at h
    generalize Token.ofBytes arg = token at hof h
    cases hof with
    | separator => exact absurd rfl harg
    | long name value =>
      refine hrest h fun hx => (option_eq_error hx).imp_right ?_
      rintro ⟨word, hword, hprefix⟩
      exact ⟨word, hword, hprefix.trans ⟨attachment value, rfl⟩⟩
    | short first rest =>
      obtain ⟨e, he⟩ | hasks := p.letters_eq first rest
      · exact .inl ⟨e, (Except.error.inj h).symm.trans he⟩
      · exact .inr (.inl hasks)
    | plain hplain =>
      dsimp only at h
      split at h
      · exact (ih h).imp_right .inr
      · exact hrest h fun hx => .inl (exists_usage_of_mapError hx)

end Progress

variable {args : List Bytes} {environmentSeed : Option Bytes}

theorem Invocation.read_eq_error {stop : Stop}
    (h : read args environmentSeed = .error stop) :
    (∃ e, stop = .usage e) ∨ ∃ arg ∈ front args, AsksForHelp arg := by
  rw [read] at h
  -- an error at the end of the arguments is never a call for help: help ends reading at once
  cases hread : Progress.read {} args with
  | error stop' =>
    rw [hread] at h
    obtain rfl := Except.error.inj h
    exact Progress.read_eq_error hread
  | ok p =>
    rw [hread] at h
    exact .inl (Progress.exists_usage_of_mapError h)

theorem exists_rel_iff {α β : Type} {r : α → β → Prop} {o : Option α} :
    (∃ o', Option.Rel r o o') ↔ ∀ a ∈ o, ∃ b, r a b := by
  constructor
  · rintro ⟨o', hrel⟩ a ha
    cases hrel with
    | some hb => exact ⟨_, Option.some.inj ha ▸ hb⟩
    | none => cases ha
  · intro h
    cases o with
    | none => exact ⟨none, .none⟩
    | some a =>
      obtain ⟨b, hb⟩ := h a rfl
      exact ⟨some b, .some hb⟩

/-- **The grammar of command lines.** A command line is understood exactly if

* in front of the separator, what looks like an option is one, and an option for a seed that has
  none attached is followed by what does not look like an option;
* a dry run and a seed are asked for once at most;
* there is one operand, and it is not empty;
* the text of the seed, if there is one, spells a 64-bit word. The environment is asked only if
  there is no option.

Then the operand is the path, and the options are those given. A call for help is not understood in
this sense, whatever else there is; without one, a command line outside the grammar ends with a
usage error. -/
theorem read_grammar (args : List Bytes) (environmentSeed : Option Bytes) :
    ((∃ inv, Invocation.read args environmentSeed = .ok inv) ↔
      (∀ arg ∈ front args, LooksLikeOption arg →
        arg = dryRunWord ∨ arg = seedWord ∨ seedPrefix <+: arg) ∧
      (∀ before after, args = before ++ seedWord :: after → separatorWord ∉ before →
        ∃ value ∈ after.head?, ¬LooksLikeOption value) ∧
      ((front args).count dryRunWord ≤ 1 ∧
        (front args).countP (fun arg => arg = seedWord ∨ seedPrefix <+: arg) ≤ 1) ∧
      (∃ path, operands args = [path] ∧ path ≠ []) ∧
      ∀ text ∈ seedText args environmentSeed, ∃ seed, SpellsSeed text seed) ∧
    (∀ inv, Invocation.read args environmentSeed = .ok inv →
      operands args = [inv.path] ∧ (inv.options.dryRun = true ↔ dryRunWord ∈ front args) ∧
        Option.Rel SpellsSeed (seedText args environmentSeed) inv.options.seed) ∧
    ((∀ arg ∈ front args, ¬AsksForHelp arg) → ∀ stop,
      Invocation.read args environmentSeed = .error stop → ∃ e, stop = .usage e) := by
  refine ⟨?_, fun inv hread => ?_, fun hask stop hread => ?_⟩
  · constructor
    · rintro ⟨inv, hread⟩
      obtain ⟨hshaped, hdry, hlength, hseed, hpath, hne⟩ := Invocation.read_eq_ok_iff.mp hread
      obtain ⟨hoptions, hvalued, -⟩ := shaped_iff.mp hshaped
      refine ⟨hoptions, hvalued, ⟨?_, ?_⟩, ⟨inv.path, hpath, hne⟩, exists_rel_iff.mp ⟨_, hseed⟩⟩
      · rw [hdry]
        exact inv.options.dryRun.toNat_le
      · exact Nat.le_trans (Nat.le_of_eq (length_seedTexts hshaped).symm) hlength
    · rintro ⟨hoptions, hvalued, ⟨hdry, hlength⟩, ⟨path, hpath, hne⟩, htext⟩
      obtain ⟨seed, hseed⟩ := exists_rel_iff.mpr htext
      have hshaped : Shaped false args :=
        shaped_iff.mpr ⟨hoptions, hvalued, fun h => Bool.noConfusion h⟩
      -- the invocation is put together from the parts
      refine ⟨⟨path, seed, (front args).count dryRunWord == 1⟩, Invocation.read_eq_ok_iff.mpr
        ⟨hshaped, ?_, Nat.le_trans (Nat.le_of_eq (length_seedTexts hshaped)) hlength, hseed, hpath,
          hne⟩⟩
      obtain hzero | hone := Nat.le_one_iff_eq_zero_or_eq_one.mp hdry
      · rw [hzero]
        rfl
      · rw [hone]
        rfl
  · obtain ⟨-, hdry, -, hseed, hpath, -⟩ := Invocation.read_eq_ok_iff.mp hread
    refine ⟨hpath, ?_, hseed⟩
    rw [← List.count_pos_iff, hdry]
    cases inv.options.dryRun <;> simp
  · obtain he | ⟨arg, harg, hasks⟩ := Invocation.read_eq_error hread
    · exact he
    · exact absurd hasks (hask arg harg)

/-- The greatest seed with a sign and leading zeros, over an environment that is no text, and a path
that looks like a call for help; and the first number that is no seed. -/
theorem read_grammar_limit :
    let accepted : List Bytes :=
      ["--seed", "+0018446744073709551615", "--dry-run", "--", "--help"].map Utf8.encode
    let rejected : List Bytes := ["--seed=18446744073709551616", "-"].map Utf8.encode
    let inv : Invocation := ⟨Utf8.encode "--help", ⟨some 18446744073709551615, true⟩⟩
    (Invocation.read accepted (some [0xFF]) = .ok inv ∧ operands accepted = [inv.path] ∧
        dryRunWord ∈ front accepted ∧
        Option.Rel SpellsSeed (seedText accepted (some [0xFF])) inv.options.seed) ∧
      (∀ arg ∈ front rejected, ¬AsksForHelp arg) ∧
      ∃ e, Invocation.read rejected none = .error (.usage e) := by
  intro accepted rejected inv
  have hread : Invocation.read accepted (some [0xFF]) = .ok inv :=
    toOption_eq_some_iff.mp (by decide +kernel)
  have hasks : ∀ arg ∈ front rejected, ¬AsksForHelp arg := by decide +kernel
  have hnone : (Invocation.read rejected none).toOption = none := by decide +kernel
  obtain ⟨hpath, hdry, hseed⟩ := (read_grammar accepted (some [0xFF])).2.1 inv hread
  refine ⟨⟨hread, hpath, hdry.mp rfl, hseed⟩, hasks, ?_⟩
  cases hrejected : Invocation.read rejected none with
  | ok inv' =>
    rw [hrejected] at hnone
    cases hnone
  | error stop =>
    obtain ⟨e, he⟩ := (read_grammar rejected none).2.2 hasks stop hrejected
    exact ⟨e, congrArg Except.error he⟩

end OverrunHarness
