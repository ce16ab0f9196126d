import OverrunHarness.Proofs.Acceptance
/-!
# Writing command lines

The other direction: a command line is written part by part, and what it is read as is told by the
parts, in whatever order they stand (`Invocation.read_write`).

The same run can be asked for in several ways. The text of the seed is attached to its option, or
behind it, or in the environment; the path stands by itself or behind the separator. All of them
are read as the same invocation (`Invocation.read_write_of_perm`).
-/

namespace OverrunHarness

open CommandLine

/-- A part of a command line in front of the separator. -/
inductive Part
  | operand (value : Bytes)
  | dryRun
  /-- A seed, its text attached to the option or behind it. -/
  | seed (attached : Bool) (text : Bytes)
  deriving Repr, DecidableEq

namespace Part

/-- The arguments that a part is written as. -/
def words : Part → List Bytes
  | operand value => [value]
  | dryRun => [dryRunWord]
  | seed true text => [seedPrefix ++ text]
  | seed false text => [seedWord, text]

/-- Whether the bytes of a part that are an argument of their own are not taken for an option. -/
def IsPlain : Part → Prop
  | operand value => ¬LooksLikeOption value
  | seed false text => ¬LooksLikeOption text
  | _ => True

/-- The operand that a part is. -/
def operand? : Part → Option Bytes
  | operand value => some value
  | _ => none

/-- The text for the seed that a part gives. -/
def seedText? : Part → Option Bytes
  | seed _ text => some text
  | _ => none

end Part

/-- The command line of some parts and, if there is a separator, of the operands behind it. -/
def CommandLine.write (parts : List Part) (behind : Option (List Bytes)) : List Bytes :=
  parts.flatMap Part.words ++ (behind.map (separatorWord :: ·)).getD []

section

variable {p : Progress} {part : Part} {parts : List Part} {behind : Option (List Bytes)}
  {environmentSeed : Option Bytes} {inv : Invocation}

theorem write_nil : write [] behind = (behind.map (separatorWord :: ·)).getD [] := rfl

theorem write_cons : write (part :: parts) behind = part.words ++ write parts behind := by
  rw [write, write, List.flatMap_cons, List.append_assoc]

/-- A seed that is written goes into the progress, whichever way it is written. -/
theorem completes_words_seed {attached : Bool} {text : Bytes} {rest : List Bytes}
    (hplain : (Part.seed attached text).IsPlain) :
    p.Completes false ((Part.seed attached text).words ++ rest) environmentSeed inv ↔
      p.seed = none ∧ ∃ seed, SpellsSeed text seed ∧
        Progress.Completes { p with seed := some seed } false rest environmentSeed inv := by
  cases attached with
  | true => exact Progress.completes_seedPrefix_append p.given
  | false => exact Progress.completes_seedWord.trans (Progress.completes_awaited p.given hplain)

/-- A progress and a command line that is written make up what its parts do. -/
theorem completes_write (hplain : ∀ part ∈ parts, part.IsPlain) :
    p.Completes false (write parts behind) environmentSeed inv ↔
      GivesSwitch p.dryRun (parts.count .dryRun) inv.options.dryRun ∧
        GivesSeed p.seed (parts.filterMap Part.seedText?) environmentSeed inv.options.seed ∧
        GivesPath p.path (parts.filterMap Part.operand? ++ behind.getD []) inv.path := by
  induction parts generalizing p with
  | nil =>
    rw [write_nil]
    cases behind with
    | none => exact Progress.completes_nil.trans Progress.completes_separatorWord
    | some values => exact Progress.completes_separatorWord
  | cons part parts ih =>
    obtain ⟨hpart, hparts⟩ := List.forall_mem_cons.mp hplain
    -- a part is read by the law for its words, and what it adds is what the lists of parts add
    have hnext := fun q => @ih q hparts
    rw [write_cons]
    cases part with
    | operand value =>
      have hwords : (Part.operand value).words ++ write parts behind =
          value :: write parts behind := rfl
      rw [hwords, Progress.completes_operand p.given hpart, hnext, List.count_cons_of_ne (by simp)]
      simp only [List.filterMap_cons, Part.seedText?, Part.operand?, List.cons_append,
        givesPath_cons]
      constructor
      · rintro ⟨hfirst, hne, hdry, hseed, hpath⟩
        exact ⟨hdry, hseed, hfirst, hne, hpath⟩
      · rintro ⟨hdry, hseed, hfirst, hne, hpath⟩
        exact ⟨hfirst, hne, hdry, hseed, hpath⟩
    | dryRun =>
      have hwords : Part.dryRun.words ++ write parts behind =
          dryRunWord :: write parts behind := rfl
      rw [hwords, Progress.completes_dryRunWord p.given, hnext, List.count_cons_self,
        givesSwitch_succ, and_assoc]
      simp only [List.filterMap_cons, Part.seedText?, Part.operand?]
    | seed attached text =>
      rw [completes_words_seed hpart, List.count_cons_of_ne (by simp)]
      simp only [hnext, List.filterMap_cons, Part.seedText?, Part.operand?, givesSeed_cons]
      constructor
      · rintro ⟨hfirst, seed, hvalue, hdry, hseed, hpath⟩
        exact ⟨hdry, ⟨hfirst, seed, hvalue, hseed⟩, hpath⟩
      · rintro ⟨hdry, ⟨hfirst, seed, hvalue, hseed⟩, hpath⟩
        exact ⟨hfirst, seed, hvalue, hdry, hseed, hpath⟩

/-- A command line that is written is read as what its parts make up. -/
theorem Invocation.read_write (hplain : ∀ part ∈ parts, part.IsPlain) :
    read (write parts behind) environmentSeed = .ok inv ↔
      GivesSwitch false (parts.count .dryRun) inv.options.dryRun ∧
        GivesSeed none (parts.filterMap Part.seedText?) environmentSeed inv.options.seed ∧
        GivesPath none (parts.filterMap Part.operand? ++ behind.getD []) inv.path :=
  read_eq_ok_iff_completes.trans (completes_write hplain)

end

/-! ### Several ways to ask for one run -/

/-- The ways to give a text for the seed: as an option, whatever the environment holds, or in the
environment. -/
inductive SeedGiven (text : Bytes) : List Part → Option Bytes → Prop
  | option (attached : Bool) (environmentSeed : Option Bytes) :
    SeedGiven text [.seed attached text] environmentSeed
  | environment : SeedGiven text [] (some text)

/-- The ways to give a path: by itself, if it does not look like an option, or behind the
separator. -/
inductive PathGiven (path : Bytes) : List Part → Option (List Bytes) → Prop
  | plain (h : ¬LooksLikeOption path) : PathGiven path [.operand path] none
  | behind : PathGiven path [] (some [path])

/-- The text of a seed begins with a sign or a digit. -/
theorem not_looksLikeOption_of_spellsSeed {text : Bytes} {seed : UInt64}
    (h : SpellsSeed text seed) : ¬LooksLikeOption text := by
  rintro ⟨hhead, -⟩
  obtain ⟨t, rfl, sign, digits, htext, hsign, -, hdigits, -⟩ := h
  cases hbytes : Utf8.encode t with
  | nil =>
    rw [hbytes] at hhead
    cases hhead
  | cons b rest =>
    rw [hbytes] at hhead
    obtain rfl : b = dash := Option.some.inj hhead
    -- a dash is a character by itself
    have hpieces := Utf8.pieces_encode t
    rw [hbytes, Utf8.pieces, htext] at hpieces
    obtain rfl | rfl := hsign
    · cases digits with
      | nil => cases hpieces
      | cons c digits =>
        obtain rfl : '-' = c := Option.some.inj (List.cons.inj hpieces).1
        exact absurd (hdigits '-' List.mem_cons_self) (by decide)
    · exact absurd (Option.some.inj (List.cons.inj hpieces).1 : '-' = '+') (by decide)

/-- The ways to ask for a run are read alike, whatever the order of what is in front of the
separator. -/
theorem Invocation.read_write_of_perm {text path : Bytes} {seed : UInt64} {dryRun : Bool}
    {seedParts pathParts parts : List Part} {behind : Option (List Bytes)}
    {environmentSeed : Option Bytes} (hspells : SpellsSeed text seed) (hne : path ≠ [])
    (hseed : SeedGiven text seedParts environmentSeed) (hpath : PathGiven path pathParts behind)
    (hperm : parts.Perm (List.replicate dryRun.toNat .dryRun ++ seedParts ++ pathParts)) :
    read (write parts behind) environmentSeed = .ok ⟨path, ⟨some seed, dryRun⟩⟩ := by
  have hplain : ∀ part ∈ parts, part.IsPlain := by
    intro part hpart
    -- only a seed behind its option and a path by itself stand where they could be mistaken
    rw [hperm.mem_iff, List.mem_append, List.mem_append] at hpart
    obtain (hpart | hpart) | hpart := hpart
    · obtain rfl := List.eq_of_mem_replicate hpart
      trivial
    · cases hseed with
      | option attached =>
        obtain rfl := List.mem_singleton.mp hpart
        cases attached with
        | true => trivial
        | false => exact not_looksLikeOption_of_spellsSeed hspells
      | environment => cases hpart
    · cases hpath with
      | plain h =>
        obtain rfl := List.mem_singleton.mp hpart
        exact h
      | behind => cases hpart
  refine (read_write hplain).mpr ⟨?_, ?_, ?_⟩
  · rw [hperm.count_eq]
    cases hseed <;> cases hpath <;> simp [GivesSwitch]
  -- at most one text is given for the seed, so the order says nothing about it
  · have htexts : (parts.filterMap Part.seedText?).Perm (seedParts.filterMap Part.seedText?) := by
      have h := hperm.filterMap Part.seedText?
      rw [List.filterMap_append, List.filterMap_append, List.filterMap_replicate_of_none rfl] at h
      cases hpath <;> simpa [List.filterMap_cons, Part.seedText?] using h
    cases hseed with
    | option attached =>
      rw [List.perm_singleton.mp htexts]
      exact givesSeed_cons.mpr ⟨rfl, seed, hspells, rfl, rfl⟩
    | environment =>
      rw [List.Perm.eq_nil htexts]
      exact givesSeed_nil.mpr (.some hspells)
  -- likewise for the operands, of which there is at most one in front of the separator
  · have hoperands : (parts.filterMap Part.operand?).Perm (pathParts.filterMap Part.operand?) := by
      have h := hperm.filterMap Part.operand?
      rw [List.filterMap_append, List.filterMap_append, List.filterMap_replicate_of_none rfl] at h
      cases hseed <;> simpa [List.filterMap_cons, Part.operand?] using h
    cases hpath with
    | plain h =>
      rw [List.perm_singleton.mp hoperands]
      exact givesPath_cons.mpr ⟨rfl, hne, givesPath_nil.mpr rfl⟩
    | behind =>
      rw [List.Perm.eq_nil hoperands]
      exact givesPath_cons.mpr ⟨rfl, hne, givesPath_nil.mpr rfl⟩

end OverrunHarness
