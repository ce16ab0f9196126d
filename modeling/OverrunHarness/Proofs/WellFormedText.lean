import OverrunHarness.Text.Utf8
/-!
# Well-formed text

The reader of `Utf8` and the encoder are inverse to each other: a byte string reads as a text
exactly if it is the UTF-8 form of that text (`decode?_eq_some_iff`).

Between the two stands the **table of well-formed sequences** (`Sequence`), with the ranges that
rule out overlong forms, surrogates and codes past the last one. The reader takes such a sequence
and no other for a character (`exists_sequence_of_next`, `Sequence.next_eq`), and the encoder
writes such a sequence and no other (`sequence_utf8EncodeChar`, `Sequence.eq_utf8EncodeChar`).
-/

namespace OverrunHarness

namespace Utf8

/-- A continuation byte that is not confined any further. -/
def IsContinuation (b : UInt8) : Prop := 0x80 ≤ b.toNat ∧ b.toNat ≤ 0xBF

/-- The well-formed sequences, each with the code of its character. -/
inductive Sequence : Bytes → Nat → Prop
  | one {b : UInt8} (lead : b.toNat < 0x80) : Sequence [b] b.toNat
  | two {b b1 : UInt8} (lead : 0xC2 ≤ b.toNat ∧ b.toNat < 0xE0) (next : IsContinuation b1) :
    Sequence [b, b1] (b.toNat % 32 * 64 + b1.toNat % 64)
  /-- The lead byte `E0` rules out what two bytes could say, and `ED` rules out the surrogates. -/
  | three {b b1 b2 : UInt8} (lead : 0xE0 ≤ b.toNat ∧ b.toNat < 0xF0) (next : IsContinuation b1)
    (long : b.toNat = 0xE0 → 0xA0 ≤ b1.toNat) (scalar : b.toNat = 0xED → b1.toNat ≤ 0x9F)
    (last : IsContinuation b2) :
    Sequence [b, b1, b2] ((b.toNat % 16 * 64 + b1.toNat % 64) * 64 + b2.toNat % 64)
  /-- The lead byte `F0` rules out what three bytes could say, and `F4` what is past the last
  code. -/
  | four {b b1 b2 b3 : UInt8} (lead : 0xF0 ≤ b.toNat ∧ b.toNat < 0xF5) (next : IsContinuation b1)
    (long : b.toNat = 0xF0 → 0x90 ≤ b1.toNat) (inside : b.toNat = 0xF4 → b1.toNat ≤ 0x8F)
    (third : IsContinuation b2) (last : IsContinuation b3) :
    Sequence [b, b1, b2, b3]
      (((b.toNat % 8 * 64 + b1.toNat % 64) * 64 + b2.toNat % 64) * 64 + b3.toNat % 64)

/-! ### The reader follows the table -/

/-- The promise of a lead byte, by its number. -/
theorem Lead.ofByte?_eq (b : UInt8) :
    Lead.ofByte? b =
      if b.toNat < 0xC2 then none
      else if b.toNat < 0xE0 then some ⟨1, 0x80, 0xBF, b.toNat % 32⟩
      else if b.toNat < 0xF0 then
        some ⟨2, if b.toNat = 0xE0 then 0xA0 else 0x80, if b.toNat = 0xED then 0x9F else 0xBF,
          b.toNat % 16⟩
      else if b.toNat < 0xF5 then
        some ⟨3, if b.toNat = 0xF0 then 0x90 else 0x80, if b.toNat = 0xF4 then 0x8F else 0xBF,
          b.toNat % 8⟩
      else none := by
  simp only [ofByte?, UInt8.lt_iff_toNat_lt, ← UInt8.toNat_inj, UInt8.reduceToNat]

@[simp] theorem continuation_zero (low high : UInt8) (payload : Nat) (bs : Bytes) :
    continuation 0 low high payload bs = (some payload, bs) := by
  rw [continuation]

/-- A sequence is read to its end if its next byte is in range and so are those behind it. -/
theorem continuation_eq_some_iff {more payload code : Nat} {low high : UInt8} {bs left : Bytes} :
    continuation (more + 1) low high payload bs = (some code, left) ↔
      ∃ b rest, bs = b :: rest ∧ (low.toNat ≤ b.toNat ∧ b.toNat ≤ high.toNat) ∧
        continuation more 0x80 0xBF (payload * 64 + b.toNat % 64) rest = (some code, left) := by
  cases bs with
  | nil => simp [continuation]
  | cons b rest =>
    simp only [continuation, UInt8.le_iff_toNat_le]
    by_cases hb : low.toNat ≤ b.toNat ∧ b.toNat ≤ high.toNat
    · rw [if_pos hb]
      constructor
      · exact fun h => ⟨b, rest, rfl, hb, h⟩
      · rintro ⟨_, _, heq, -, h⟩
        obtain ⟨rfl, rfl⟩ := List.cons.inj heq
        exact h
    · rw [if_neg hb]
      constructor
      · intro h
        cases h
      · rintro ⟨_, _, heq, hb', -⟩
        obtain ⟨rfl, rfl⟩ := List.cons.inj heq
        exact absurd hb' hb

/-- Behind a lead byte, a piece is a character if its sequence is read to the end. -/
theorem next_eq_some_iff_of_lead {b : UInt8} {lead : Lead} (hlead : Lead.ofByte? b = some lead)
    {rest left : Bytes} {c : Char} :
    next b rest = (some c, left) ↔
      ∃ code, continuation lead.more lead.low lead.high lead.payload rest = (some code, left) ∧
        Char.ofNat code = c := by
  have hb : ¬b < 0x80 := by
    intro hb
    have hlt : b.toNat < 0xC2 := Nat.lt_trans (UInt8.lt_iff_toNat_lt.mp hb) (by decide)
    rw [Lead.ofByte?_eq, if_pos hlt] at hlead
    cases hlead
  rw [next, if_neg hb, hlead]
  dsimp only
  generalize continuation lead.more lead.low lead.high lead.payload rest = result
  obtain ⟨code, left'⟩ := result
  cases code with
  | none => simp
  | some code =>
    constructor
    · intro h
      obtain ⟨hc, rfl⟩ := Prod.mk.inj h
      exact ⟨code, rfl, Option.some.inj hc⟩
    · rintro ⟨_, hread, rfl⟩
      obtain ⟨hcode, rfl⟩ := Prod.mk.inj hread
      obtain rfl := Option.some.inj hcode
      rfl

/-- The range of the byte behind a lead byte, if some lead bytes narrow it. -/
theorem confined_iff {p q : Prop} [Decidable p] [Decidable q] {low high b : UInt8}
    (hlow : 0x80 ≤ low.toNat) (hhigh : high.toNat ≤ 0xBF) :
    (if p then low else 0x80).toNat ≤ b.toNat ∧ b.toNat ≤ (if q then high else 0xBF).toNat ↔
      IsContinuation b ∧ (p → low.toNat ≤ b.toNat) ∧ (q → b.toNat ≤ high.toNat) := by
  rw [apply_ite UInt8.toNat, apply_ite UInt8.toNat, IsContinuation]
  simp only [UInt8.reduceToNat]
  by_cases hp : p <;> by_cases hq : q <;>
    simp only [hp, hq, ↓reduceIte, true_implies, false_implies, and_true, true_and] <;> omega

/-- A piece that is a character is a sequence of the table. -/
theorem exists_sequence_of_next {b : UInt8} {rest left : Bytes} {c : Char}
    (h : next b rest = (some c, left)) :
    ∃ bs code, b :: rest = bs ++ left ∧ Sequence bs code ∧ Char.ofNat code = c := by
  by_cases hone : b.toNat < 0x80
  · rw [next, if_pos (UInt8.lt_iff_toNat_lt.mpr hone)] at h
    obtain ⟨hc, rfl⟩ := Prod.mk.inj h
    exact ⟨[b], _, rfl, .one hone, Option.some.inj hc⟩
  have hlead := Lead.ofByte?_eq b
  by_cases hnone : b.toNat < 0xC2
  · rw [if_pos hnone] at hlead
    rw [next, if_neg (by rwa [UInt8.lt_iff_toNat_lt]), hlead] at h
    cases h
  rw [if_neg hnone] at hlead
  by_cases htwo : b.toNat < 0xE0
  · rw [if_pos htwo] at hlead
    obtain ⟨code, hread, hc⟩ := (next_eq_some_iff_of_lead hlead).mp h
    obtain ⟨b1, rest, rfl, h1, hread⟩ := continuation_eq_some_iff.mp hread
    obtain ⟨hcode, rfl⟩ := Prod.mk.inj hread
    exact ⟨[b, b1], code, rfl, Option.some.inj hcode ▸ .two ⟨by omega, htwo⟩ h1, hc⟩
  rw [if_neg htwo] at hlead
  by_cases hthree : b.toNat < 0xF0
  · rw [if_pos hthree] at hlead
    obtain ⟨code, hread, hc⟩ := (next_eq_some_iff_of_lead hlead).mp h
    obtain ⟨b1, rest, rfl, h1, hread⟩ := continuation_eq_some_iff.mp hread
    obtain ⟨b2, rest, rfl, h2, hread⟩ := continuation_eq_some_iff.mp hread
    obtain ⟨hcode, rfl⟩ := Prod.mk.inj hread
    obtain ⟨h1, hlong, hscalar⟩ := (confined_iff (by decide) (by decide)).mp h1
    exact ⟨[b, b1, b2], code, rfl,
      Option.some.inj hcode ▸ .three ⟨by omega, hthree⟩ h1 hlong hscalar h2, hc⟩
  rw [if_neg hthree] at hlead
  by_cases hfour : b.toNat < 0xF5
  · rw [if_pos hfour] at hlead
    obtain ⟨code, hread, hc⟩ := (next_eq_some_iff_of_lead hlead).mp h
    obtain ⟨b1, rest, rfl, h1, hread⟩ := continuation_eq_some_iff.mp hread
    obtain ⟨b2, rest, rfl, h2, hread⟩ := continuation_eq_some_iff.mp hread
    obtain ⟨b3, rest, rfl, h3, hread⟩ := continuation_eq_some_iff.mp hread
    obtain ⟨hcode, rfl⟩ := Prod.mk.inj hread
    obtain ⟨h1, hlong, hinside⟩ := (confined_iff (by decide) (by decide)).mp h1
    exact ⟨[b, b1, b2, b3], code, rfl,
      Option.some.inj hcode ▸ .four ⟨by omega, hfour⟩ h1 hlong hinside h2 h3, hc⟩
  · rw [if_neg hfour] at hlead
    rw [next, if_neg (by rwa [UInt8.lt_iff_toNat_lt]), hlead] at h
    cases h

/-- A sequence of the table is read as the character of its code. -/
theorem Sequence.next_eq {b : UInt8} {bs left : Bytes} {code : Nat} (h : Sequence (b :: bs) code) :
    Utf8.next b (bs ++ left) = (some (Char.ofNat code), left) := by
  have hlead := Lead.ofByte?_eq b
  cases h with
  | one lead =>
    rw [Utf8.next, if_pos (UInt8.lt_iff_toNat_lt.mpr lead)]
    rfl
  | two lead next =>
    rw [if_neg (by omega), if_pos (by omega)] at hlead
    refine (next_eq_some_iff_of_lead hlead).mpr ⟨_, ?_, rfl⟩
    exact continuation_eq_some_iff.mpr ⟨_, _, rfl, next, rfl⟩
  | three lead next long scalar last =>
    rw [if_neg (by omega), if_neg (by omega), if_pos (by omega)] at hlead
    refine (next_eq_some_iff_of_lead hlead).mpr ⟨_, ?_, rfl⟩
    refine continuation_eq_some_iff.mpr ⟨_, _, rfl,
      (confined_iff (by decide) (by decide)).mpr ⟨next, long, scalar⟩, ?_⟩
    exact continuation_eq_some_iff.mpr ⟨_, _, rfl, last, rfl⟩
  | four lead next long inside third last =>
    rw [if_neg (by omega), if_neg (by omega), if_neg (by omega), if_pos (by omega)] at hlead
    refine (next_eq_some_iff_of_lead hlead).mpr ⟨_, ?_, rfl⟩
    refine continuation_eq_some_iff.mpr ⟨_, _, rfl,
      (confined_iff (by decide) (by decide)).mpr ⟨next, long, inside⟩, ?_⟩
    refine continuation_eq_some_iff.mpr ⟨_, _, rfl, third, ?_⟩
    exact continuation_eq_some_iff.mpr ⟨_, _, rfl, last, rfl⟩

/-! ### The table is what the encoder writes -/

theorem toNat_charOfNat {code : Nat} (h : code.isValidChar) : (Char.ofNat code).toNat = code := by
  rw [Char.ofNat, dif_pos h]
  rfl

theorem Sequence.isValidChar {bs : Bytes} {code : Nat} (h : Sequence bs code) :
    code.isValidChar := by
  rw [Nat.isValidChar]
  cases h with
  | one lead => omega
  | two lead next =>
    obtain ⟨hlow, hhigh⟩ := next
    omega
  | three lead next long scalar last =>
    obtain ⟨hlow, hhigh⟩ := next
    obtain ⟨hlast, hlast'⟩ := last
    omega
  | four lead next long inside third last =>
    obtain ⟨hlow, hhigh⟩ := next
    omega

theorem eq_ofNat_of_toNat {b : UInt8} {n : Nat} (h : b.toNat = n) : b = UInt8.ofNat n := by
  rw [← h, UInt8.ofNat_toNat]

/-- A sequence of the table is what the encoder writes for its code. -/
theorem Sequence.eq_utf8EncodeChar {bs : Bytes} {code : Nat} (h : Sequence bs code) :
    bs = String.utf8EncodeChar (Char.ofNat code) := by
  have hcode : (Char.ofNat code).val.toNat = code := toNat_charOfNat h.isValidChar
  rw [String.utf8EncodeChar, hcode]
  cases h with
  | one lead =>
    rw [if_pos (by omega), UInt8.ofNat_toNat]
  | two lead next =>
    obtain ⟨hlow, hhigh⟩ := next
    rw [if_neg (by omega), if_pos (by omega)]
    simp only [List.cons.injEq, and_true]
    refine ⟨eq_ofNat_of_toNat ?_, eq_ofNat_of_toNat ?_⟩ <;> omega
  | three lead next long scalar last =>
    obtain ⟨hlow, hhigh⟩ := next
    obtain ⟨hlast, hlast'⟩ := last
    rw [if_neg (by omega), if_neg (by omega), if_pos (by omega)]
    simp only [List.cons.injEq, and_true]
    refine ⟨eq_ofNat_of_toNat ?_, eq_ofNat_of_toNat ?_, eq_ofNat_of_toNat ?_⟩ <;> omega
  | four lead next long inside third last =>
    obtain ⟨hlow, hhigh⟩ := next
    obtain ⟨hthird, hthird'⟩ := third
    obtain ⟨hlast, hlast'⟩ := last
    rw [if_neg (by omega), if_neg (by omega), if_neg (by omega)]
    simp only [List.cons.injEq, and_true]
    refine ⟨eq_ofNat_of_toNat ?_, eq_ofNat_of_toNat ?_, eq_ofNat_of_toNat ?_,
      eq_ofNat_of_toNat ?_⟩ <;> omega

theorem toNat_ofNat_of_lt {n : Nat} (h : n < 0x100) : (UInt8.ofNat n).toNat = n := by
  rw [UInt8.toNat_ofNat']
  exact Nat.mod_eq_of_lt h

theorem Sequence.of_eq {bs : Bytes} {code code' : Nat} (h : Sequence bs code)
    (hcode : code = code') : Sequence bs code' := hcode ▸ h

/-- What the encoder writes for a character is a sequence of the table. -/
theorem sequence_utf8EncodeChar (c : Char) : Sequence (String.utf8EncodeChar c) c.val.toNat := by
  have hvalid : c.val.toNat.isValidChar := c.valid
  rw [Nat.isValidChar] at hvalid
  rw [String.utf8EncodeChar]
  generalize c.val.toNat = v at *
  have hlast : (UInt8.ofNat (v % 64 + 128)).toNat = v % 64 + 128 := toNat_ofNat_of_lt (by omega)
  by_cases hone : v ≤ 127
  · have hb : (UInt8.ofNat v).toNat = v := toNat_ofNat_of_lt (by omega)
    rw [if_pos hone]
    exact (Sequence.one (by omega)).of_eq hb
  rw [if_neg hone]
  by_cases htwo : v ≤ 2047
  · have hb : (UInt8.ofNat (v / 64 % 32 + 192)).toNat = v / 64 % 32 + 192 :=
      toNat_ofNat_of_lt (by omega)
    rw [if_pos htwo]
    exact (Sequence.two (by omega) ⟨by omega, by omega⟩).of_eq (by omega)
  rw [if_neg htwo]
  have hsecond : (UInt8.ofNat (v / 64 % 64 + 128)).toNat = v / 64 % 64 + 128 :=
    toNat_ofNat_of_lt (by omega)
  by_cases hthree : v ≤ 65535
  · have hb : (UInt8.ofNat (v / 4096 % 16 + 224)).toNat = v / 4096 % 16 + 224 :=
      toNat_ofNat_of_lt (by omega)
    rw [if_pos hthree]
    exact (Sequence.three (by omega) ⟨by omega, by omega⟩ (by omega) (by omega)
      ⟨by omega, by omega⟩).of_eq (by omega)
  · have hb : (UInt8.ofNat (v / 262144 % 8 + 240)).toNat = v / 262144 % 8 + 240 :=
      toNat_ofNat_of_lt (by omega)
    have hthird : (UInt8.ofNat (v / 4096 % 64 + 128)).toNat = v / 4096 % 64 + 128 :=
      toNat_ofNat_of_lt (by omega)
    rw [if_neg hthree]
    exact (Sequence.four (by omega) ⟨by omega, by omega⟩ (by omega) (by omega)
      ⟨by omega, by omega⟩ ⟨by omega, by omega⟩).of_eq (by omega)

/-! ### Whole texts -/

/-- A piece that is a character is what the encoder writes for it. -/
theorem eq_utf8EncodeChar_append_of_next {b : UInt8} {rest left : Bytes} {c : Char}
    (h : next b rest = (some c, left)) : b :: rest = String.utf8EncodeChar c ++ left := by
  obtain ⟨bs, code, hbs, hseq, rfl⟩ := exists_sequence_of_next h
  rw [hbs, hseq.eq_utf8EncodeChar]

/-- What the encoder writes for a character is a piece, whatever stands behind it. -/
theorem next_of_utf8EncodeChar_eq {c : Char} {b : UInt8} {bs : Bytes}
    (h : String.utf8EncodeChar c = b :: bs) (rest : Bytes) :
    next b (bs ++ rest) = (some c, rest) := by
  have hseq := sequence_utf8EncodeChar c
  have hc : Char.ofNat c.val.toNat = c := c.ofNat_toNat
  rw [h] at hseq
  rw [hseq.next_eq, hc]

theorem pieces_utf8EncodeChar_append (c : Char) (rest : Bytes) :
    pieces (String.utf8EncodeChar c ++ rest) = some c :: pieces rest := by
  cases hform : String.utf8EncodeChar c with
  | nil => exact absurd (hform ▸ sequence_utf8EncodeChar c) nofun
  | cons b bs => rw [List.cons_append, pieces, next_of_utf8EncodeChar_eq hform]

/-- The UTF-8 form of a text is read as that text, whatever stands behind it. -/
theorem pieces_encodeChars_append (cs : List Char) (rest : Bytes) :
    pieces (encodeChars cs ++ rest) = cs.map some ++ pieces rest := by
  induction cs with
  | nil => rfl
  | cons c cs ih =>
    rw [encodeChars_cons, List.append_assoc, pieces_utf8EncodeChar_append, ih]
    rfl

theorem pieces_encode (t : String) : pieces (encode t) = t.toList.map some := by
  simpa [encode] using pieces_encodeChars_append t.toList []

/-- Bytes that are characters all through are the UTF-8 form of these. -/
theorem eq_encodeChars_of_pieces {bs : Bytes} {cs : List Char} (h : pieces bs = cs.map some) :
    bs = encodeChars cs := by
  induction cs generalizing bs with
  | nil =>
    cases bs with
    | nil => rfl
    | cons b rest =>
      rw [pieces] at h
      cases h
  | cons c cs ih =>
    cases bs with
    | nil =>
      rw [pieces_nil] at h
      cases h
    | cons b rest =>
      rw [pieces, List.map_cons] at h
      obtain ⟨hhead, htail⟩ := List.cons.inj h
      rw [encodeChars_cons, ← ih htail]
      exact eq_utf8EncodeChar_append_of_next (Prod.ext hhead rfl)

theorem mapM_id_map_some {α : Type} (xs : List α) : (xs.map some).mapM id = some xs := by
  induction xs with
  | nil => rfl
  | cons x xs ih => simp [ih]

theorem eq_map_some_of_mapM_id {α : Type} {os : List (Option α)} {xs : List α}
    (h : os.mapM id = some xs) : os = xs.map some := by
  induction os generalizing xs with
  | nil =>
    obtain rfl := Option.some.inj h
    rfl
  | cons o os ih =>
    rw [List.mapM_cons] at h
    obtain ⟨x, hx, h⟩ := Option.bind_eq_some_iff.mp h
    obtain ⟨ys, hys, h⟩ := Option.bind_eq_some_iff.mp h
    obtain rfl := Option.some.inj h
    rw [show o = some x from hx, ih hys, List.map_cons]

/-- **A byte string reads as a text exactly if it is the UTF-8 form of that text.** -/
theorem decode?_eq_some_iff {bs : Bytes} {t : String} : decode? bs = some t ↔ bs = encode t := by
  rw [decode?, Option.map_eq_some_iff]
  constructor
  · rintro ⟨cs, hcs, rfl⟩
    rw [encode, String.toList_ofList]
    exact eq_encodeChars_of_pieces (eq_map_some_of_mapM_id hcs)
  · rintro rfl
    exact ⟨t.toList, pieces_encode t ▸ mapM_id_map_some t.toList, String.ofList_toList⟩

end Utf8

end OverrunHarness
