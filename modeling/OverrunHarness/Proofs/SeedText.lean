import OverrunHarness.CommandLine.Invocation
import OverrunHarness.Proofs.WellFormedText
/-!
# Texts of seeds

Which byte strings are read as which seed. The reader goes through the digits and stops at the
first fault; seen from outside there is no order to it: a seed is spelled by an optional plus sign
and at least one decimal digit, in UTF-8, and its value is below 2 ^ 64 (`readSeed_eq_ok_iff`).
-/

namespace OverrunHarness

namespace Decimal

/-- Whether a text is an optional plus sign and the digits, at least one, of a number. -/
def Spells (text : List Char) (n : Nat) : Prop :=
  ∃ sign digits, text = sign ++ digits ∧ (sign = [] ∨ sign = ['+']) ∧ digits ≠ [] ∧
    (∀ c ∈ digits, c.isDigit = true) ∧ Nat.ofDigitChars 10 digits 0 = n

/-- A number has a spelling: its decimal digits, and nothing in front of them. -/
theorem spells_repr (n : Nat) : Spells n.repr.toList n := by
  refine ⟨[], Nat.toDigits 10 n, Nat.toList_repr, Or.inl rfl, Nat.toDigits_ne_nil, ?_, ?_⟩
  · exact fun c hc => Nat.isDigit_of_mem_toDigits (by decide) (by decide) hc
  · exact Nat.ofDigitChars_toDigits (by decide) (by decide)

theorem digit?_eq (c : Char) :
    digit? c = if c.isDigit = true then some (c.toNat - '0'.toNat) else none := by
  simp only [digit?, Char.isDigit_iff_toNat, Char.le_def, UInt32.le_iff_toNat_le, Char.toNat_val]

theorem le_ofDigitChars (cs : List Char) (value : Nat) : value ≤ Nat.ofDigitChars 10 cs value := by
  induction cs generalizing value with
  | nil => exact Nat.le_refl _
  | cons c cs ih =>
    rw [Nat.ofDigitChars_cons]
    exact Nat.le_trans (by omega) (ih _)

/-- Reading goes to the end of digits whose number is below the bound, and of no other text. -/
theorem readDigits_eq_ok_iff {value n : Nat} (hvalue : value < bound) {cs : List Char} :
    readDigits value cs = .ok n ↔
      (∀ c ∈ cs, c.isDigit = true) ∧ Nat.ofDigitChars 10 cs value = n ∧ n < bound := by
  induction cs generalizing value with
  | nil =>
    rw [readDigits]
    constructor
    · intro h
      obtain rfl := Except.ok.inj h
      exact ⟨fun c hc => absurd hc List.not_mem_nil, rfl, hvalue⟩
    · rintro ⟨-, rfl, -⟩
      rfl
  | cons c cs ih =>
    rw [readDigits, digit?_eq, List.forall_mem_cons, Nat.ofDigitChars_cons, Nat.mul_comm 10]
    by_cases hc : c.isDigit = true
    · rw [if_pos hc, and_iff_right hc]
      dsimp only
      by_cases hnext : value * 10 + (c.toNat - '0'.toNat) < bound
      · rw [if_pos hnext, ih hnext]
      · -- digits further right do not make the value smaller
        rw [if_neg hnext]
        constructor
        · intro h
          cases h
        · rintro ⟨-, rfl, hn⟩
          exact absurd (Nat.lt_of_le_of_lt (le_ofDigitChars cs _) hn) hnext
    · rw [if_neg hc]
      constructor
      · intro h
        cases h
      · rintro ⟨⟨hdigit, -⟩, -⟩
        exact absurd hdigit hc

theorem map_readDigits_eq_ok_iff {cs : List Char} {w : UInt64} :
    (readDigits 0 cs).map UInt64.ofNat = .ok w ↔
      (∀ c ∈ cs, c.isDigit = true) ∧ Nat.ofDigitChars 10 cs 0 = w.toNat := by
  have hzero : 0 < bound := by decide
  constructor
  · intro h
    cases hread : readDigits 0 cs with
    | error fault =>
      rw [hread] at h
      cases h
    | ok n =>
      obtain ⟨hdigits, hvalue, hn⟩ := (readDigits_eq_ok_iff hzero).mp hread
      rw [hread] at h
      obtain rfl := Except.ok.inj h
      exact ⟨hdigits, hvalue.trans (UInt64.toNat_ofNat_of_lt' hn).symm⟩
  · rintro ⟨hdigits, hvalue⟩
    rw [(readDigits_eq_ok_iff hzero).mpr ⟨hdigits, hvalue, w.toNat_lt⟩]
    exact congrArg Except.ok UInt64.ofNat_toNat

/-- Behind a plus sign, a spelling is digits. -/
theorem spells_plus_iff {cs : List Char} {n : Nat} :
    Spells ('+' :: cs) n ↔
      cs ≠ [] ∧ (∀ c ∈ cs, c.isDigit = true) ∧ Nat.ofDigitChars 10 cs 0 = n := by
  constructor
  · rintro ⟨sign, digits, heq, rfl | rfl, hne, hdigits, hvalue⟩
    · obtain rfl : '+' :: cs = digits := heq
      exact absurd (hdigits '+' List.mem_cons_self) (by decide)
    · obtain rfl := List.cons.inj heq |>.2
      exact ⟨hne, hdigits, hvalue⟩
  · rintro ⟨hne, hdigits, hvalue⟩
    exact ⟨['+'], cs, rfl, Or.inr rfl, hne, hdigits, hvalue⟩

/-- Without a plus sign in front, a spelling is digits, too. -/
theorem spells_iff_of_ne_plus {text : List Char} {n : Nat} (h : ∀ cs, text ≠ '+' :: cs) :
    Spells text n ↔
      text ≠ [] ∧ (∀ c ∈ text, c.isDigit = true) ∧ Nat.ofDigitChars 10 text 0 = n := by
  constructor
  · rintro ⟨sign, digits, rfl, rfl | rfl, hne, hdigits, hvalue⟩
    · exact ⟨hne, hdigits, hvalue⟩
    · exact absurd rfl (h digits)
  · rintro ⟨hne, hdigits, hvalue⟩
    exact ⟨[], text, rfl, Or.inl rfl, hne, hdigits, hvalue⟩

/-- Reading a word succeeds on its spellings. -/
theorem read_eq_ok_iff {text : List Char} {w : UInt64} :
    read text = .ok w ↔ Spells text w.toNat := by
  unfold read
  split
  · rw [spells_iff_of_ne_plus (by simp)]
    simp
  · rw [spells_plus_iff]
    simp
  · rename_i cs hcs
    have hne : cs ≠ [] := by
      rintro rfl
      exact hcs rfl
    rw [map_readDigits_eq_ok_iff, spells_plus_iff, and_iff_right hne]
  · rename_i cs hcs hplus hmore
    rw [map_readDigits_eq_ok_iff, spells_iff_of_ne_plus hmore, and_iff_right hcs]

end Decimal

/-- Whether a byte string is the text of a seed. -/
def SpellsSeed (text : Bytes) (seed : UInt64) : Prop :=
  ∃ t : String, text = Utf8.encode t ∧ Decimal.Spells t.toList seed.toNat

theorem spellsSeed_repr (seed : UInt64) : SpellsSeed (Utf8.encode seed.toNat.repr) seed :=
  ⟨_, rfl, Decimal.spells_repr seed.toNat⟩

/-- A byte string is read as a seed exactly if it is a text of that seed. -/
theorem readSeed_eq_ok_iff {text : Bytes} {seed : UInt64} :
    readSeed text = .ok seed ↔ SpellsSeed text seed := by
  rw [readSeed]
  cases htext : Utf8.decode? text with
  | none =>
    constructor
    · intro h
      cases h
    · rintro ⟨t, rfl, -⟩
      rw [Utf8.decode?_eq_some_iff.mpr rfl] at htext
      cases htext
  | some t =>
    have hspells : SpellsSeed text seed ↔ Decimal.Spells t.toList seed.toNat := by
      constructor
      · rintro ⟨t', rfl, h⟩
        rw [Utf8.decode?_eq_some_iff.mpr rfl] at htext
        exact Option.some.inj htext ▸ h
      · exact fun h => ⟨t, Utf8.decode?_eq_some_iff.mp htext, h⟩
    rw [hspells, ← Decimal.read_eq_ok_iff]
    dsimp only
    cases Decimal.read t.toList with
    | error fault => simp
    | ok w => simp

end OverrunHarness
