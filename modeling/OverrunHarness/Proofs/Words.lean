import OverrunHarness.CommandLine.Invocation
/-!
# Words of a command line

The arguments that the grammar names, and which arguments look like an option. What the look of an
argument says about its bytes is said once (`Token.of_ofBytes`); everything else about tokens is
read off that.
-/

namespace OverrunHarness

/-- Whether an argument begins with a dash and is not that dash alone. -/
def LooksLikeOption (arg : Bytes) : Prop := arg.head? = some dash ∧ arg ≠ [dash]

instance (arg : Bytes) : Decidable (LooksLikeOption arg) :=
  inferInstanceAs (Decidable (_ ∧ _))

/-- The argument that ends the options. -/
def separatorWord : Bytes := Utf8.encode "--"

/-- The option for a dry run. -/
def dryRunWord : Bytes := Utf8.encode "--dry-run"

/-- The option for a seed that is the next argument. -/
def seedWord : Bytes := Utf8.encode "--seed"

/-- What the option for a seed with the seed attached begins with. -/
def seedPrefix : Bytes := Utf8.encode "--seed="

/-- Whether an argument is the option for a seed, be it with the seed attached or not. -/
def IsSeedOption (arg : Bytes) : Prop := arg = seedWord ∨ seedPrefix <+: arg

instance (arg : Bytes) : Decidable (IsSeedOption arg) := inferInstanceAs (Decidable (_ ∨ _))

/-- Whether an argument is an option of a run. -/
def IsOption (arg : Bytes) : Prop := arg = dryRunWord ∨ IsSeedOption arg

/-- What stands behind the name of an option if a value is attached to it. -/
def attachment : Option Bytes → Bytes
  | none => []
  | some value => equalsSign :: value

theorem takeWhile_append_attachment (text : Bytes) :
    text.takeWhile (· ≠ equalsSign) ++ attachment (attachedValue text) = text := by
  have hbehind : attachment (attachedValue text) = text.dropWhile (· ≠ equalsSign) := by
    have hhead := List.head?_dropWhile_not (· ≠ equalsSign) text
    rw [attachedValue]
    cases hdrop : text.dropWhile (· ≠ equalsSign) with
    | nil => rfl
    | cons b value =>
      rw [hdrop] at hhead
      obtain rfl : b = equalsSign := by simpa using hhead
      rfl
  rw [hbehind, List.takeWhile_append_dropWhile]

theorem separatorWord_eq : separatorWord = [dash, dash] := by decide

theorem dryRunWord_eq :
    dryRunWord = dash :: dash :: (Utf8.encode Switch.dryRun.name ++ attachment none) := by decide

theorem seedWord_eq :
    seedWord = dash :: dash :: (Utf8.encode Switch.seed.name ++ attachment none) := by decide

theorem seedPrefix_append (value : Bytes) :
    seedPrefix ++ value =
      dash :: dash :: (Utf8.encode Switch.seed.name ++ attachment (some value)) := by
  have h : seedPrefix = dash :: dash :: (Utf8.encode Switch.seed.name ++ [equalsSign]) := by decide
  rw [h, List.cons_append, List.cons_append, List.append_assoc]
  rfl

theorem looksLikeOption_cons {b : UInt8} {rest : Bytes} : LooksLikeOption (dash :: b :: rest) :=
  ⟨rfl, by simp⟩

theorem looksLikeOption_of_isOption {arg : Bytes} (h : IsOption arg) : LooksLikeOption arg := by
  obtain rfl | rfl | ⟨value, rfl⟩ := h
  · decide
  · decide
  · rw [seedPrefix_append]
    exact looksLikeOption_cons

theorem isOption_ne_separatorWord {arg : Bytes} (h : IsOption arg) : arg ≠ separatorWord := by
  rintro rfl
  revert h
  rw [IsOption]
  decide

theorem looksLikeOption_separatorWord : LooksLikeOption separatorWord := by decide

/-- What does not look like an option is none of the words. -/
theorem words_of_not_looksLikeOption {arg : Bytes} (h : ¬LooksLikeOption arg) :
    arg ≠ separatorWord ∧ arg ≠ dryRunWord ∧ arg ≠ seedWord ∧ ¬seedPrefix <+: arg := by
  have hoption : ¬IsOption arg := fun hoption => h (looksLikeOption_of_isOption hoption)
  rw [IsOption, IsSeedOption, not_or, not_or] at hoption
  exact ⟨fun heq => h (heq ▸ looksLikeOption_separatorWord), hoption⟩

namespace Token

/-- What an argument is if it has a look. -/
inductive Of : Bytes → Token → Prop
  | separator : Of separatorWord .separator
  | long (name : Bytes) (value : Option Bytes) :
    Of (dash :: dash :: (name ++ attachment value)) (.long name value)
  | short (first : UInt8) (rest : Bytes) : Of (dash :: first :: rest) (.short first rest)
  | plain {arg : Bytes} (h : ¬LooksLikeOption arg) : Of arg .plain

theorem of_ofBytes (arg : Bytes) : Of arg (ofBytes arg) := by
  unfold ofBytes
  split
  · rename_i d e rest
    by_cases hd : d = dash
    · rw [if_neg (not_not_intro hd), hd]
      by_cases he : e = dash
      · rw [if_neg (not_not_intro he), he]
        by_cases hrest : rest = []
        · rw [if_pos hrest, hrest, ← separatorWord_eq]
          exact .separator
        · have hlong := Of.long (rest.takeWhile (· ≠ equalsSign)) (attachedValue rest)
          rw [takeWhile_append_attachment] at hlong
          rwa [if_neg hrest]
      · rw [if_pos he]
        exact .short e rest
    · rw [if_pos hd]
      exact .plain fun h => hd (Option.some.inj h.1)
  · -- there is at most one byte, so if it is a dash, it is alone
    rename_i hshort
    refine .plain ?_
    rintro ⟨hhead, hne⟩
    match arg, hhead, hne, hshort with
    | [d], hhead, hne, _ => exact hne (congrArg (fun b => [b]) (Option.some.inj hhead))
    | d :: e :: rest, _, _, hshort => exact hshort d e rest rfl

theorem ofBytes_plain {arg : Bytes} (h : ¬LooksLikeOption arg) : ofBytes arg = .plain := by
  have hof := of_ofBytes arg
  generalize ofBytes arg = token at hof
  cases hof with
  | separator => exact absurd looksLikeOption_cons (separatorWord_eq ▸ h)
  | long => exact absurd looksLikeOption_cons h
  | short => exact absurd looksLikeOption_cons h
  | plain => rfl

theorem ofBytes_dryRunWord :
    ofBytes dryRunWord = .long (Utf8.encode Switch.dryRun.name) none := by decide

theorem ofBytes_seedWord : ofBytes seedWord = .long (Utf8.encode Switch.seed.name) none := by decide

theorem ofBytes_seedPrefix_append (value : Bytes) :
    ofBytes (seedPrefix ++ value) = .long (Utf8.encode Switch.seed.name) (some value) := by
  have h : seedPrefix = [dash, dash, 0x73, 0x65, 0x65, 0x64, equalsSign] := by decide
  have hname : Utf8.encode Switch.seed.name = [0x73, 0x65, 0x65, 0x64] := by decide
  rw [h, hname]
  rfl

end Token

theorem Switch.ofName?_eq_some {name : Bytes} {s : Switch} (h : Switch.ofName? name = some s) :
    name = Utf8.encode s.name := by
  simpa [eq_comm] using List.find?_some h

theorem Switch.ofName?_name (s : Switch) : Switch.ofName? (Utf8.encode s.name) = some s := by
  cases s <;> decide

end OverrunHarness
