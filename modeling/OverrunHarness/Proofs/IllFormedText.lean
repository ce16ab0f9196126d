import OverrunHarness.Proofs.WellFormedText
/-!
# Ill-formed text

The forgiving reader of `Utf8`, by laws that do not mention how it reads. It gives back a text from
the UTF-8 form of that text, whatever stands behind it (`lossy_encode_append`), and it puts one mark
for each **maximal ill-formed part** of its bytes (`lossy_append_of_illFormedPart`). Any bytes start
in one of these two ways (`exists_char_or_illFormedPart`), so that no other function obeys the two
laws (`eq_lossy_of_laws`).

What a maximal ill-formed part is, is said by the encoder alone (`IllFormedPart`): all that may
still begin the UTF-8 form of some character, or a single byte if nothing may. That the reader stops
exactly there follows from what it does behind a lead byte (`exists_completable_of_continuation`):
it consumes bytes as long as they can be completed.

The last section names the ways in which bytes go wrong. A form that is cut short is one such part;
a form that is overlong, or says a surrogate or a code past the last one, falls into its bytes.
-/

namespace OverrunHarness

namespace Utf8

/-! ### Parts that are ill-formed -/

/-- Bytes that the UTF-8 form of some character begins with. -/
def Begins (bs : Bytes) : Prop := ∃ c, bs <+: String.utf8EncodeChar c

/-- In front of the bytes `m ++ rest`, where no character stands, `m` is the longest part that may
still begin a character, or one byte if that may begin none. -/
structure IllFormedPart (m rest : Bytes) : Prop where
  ne_nil : m ≠ []
  not_char : ∀ c, ¬String.utf8EncodeChar c <+: m ++ rest
  single_or_begins : m.length = 1 ∨ Begins m
  longest : ∀ n, n <+: m ++ rest → Begins n → n.length ≤ m.length

theorem Begins.of_isPrefix {m n : Bytes} (h : Begins n) (hfront : m <+: n) : Begins m := by
  obtain ⟨c, hc⟩ := h
  exact ⟨c, hfront.trans hc⟩

theorem begins_utf8EncodeChar (c : Char) : Begins (String.utf8EncodeChar c) :=
  ⟨c, List.prefix_refl _⟩

theorem length_utf8EncodeChar_pos (c : Char) : 0 < (String.utf8EncodeChar c).length := by
  rw [String.length_utf8EncodeChar]
  exact c.utf8Size_pos

/-- The form of a character begins that of no other. -/
theorem eq_of_isPrefix_utf8EncodeChar {c d : Char}
    (h : String.utf8EncodeChar c <+: String.utf8EncodeChar d) : c = d := by
  obtain ⟨k, hk⟩ := h
  have hpieces := pieces_utf8EncodeChar_append d []
  rw [List.append_nil, ← hk, pieces_utf8EncodeChar_append] at hpieces
  exact Option.some.inj (List.cons.inj hpieces).1

/-- To be the longest part it is enough that the next byte cannot go on. -/
theorem IllFormedPart.of_head {m rest : Bytes} (hne : m ≠ [])
    (hbegins : m.length = 1 ∨ Begins m) (hchar : ∀ c, String.utf8EncodeChar c ≠ m)
    (hstop : ∀ b ∈ rest.head?, ¬Begins (m ++ [b])) : IllFormedPart m rest := by
  have hlongest (n : Bytes) (hn : n <+: m ++ rest) (h : Begins n) : n.length ≤ m.length := by
    refine Nat.le_of_not_lt fun hlt => ?_
    obtain ⟨k, rfl⟩ := List.prefix_of_prefix_length_le (List.prefix_append m rest) hn (by omega)
    cases k with
    | nil => simp at hlt
    | cons b k =>
      obtain ⟨left, hleft⟩ := hn
      rw [List.append_assoc, List.append_cancel_left_eq] at hleft
      refine hstop b (by rw [← hleft]; rfl) (h.of_isPrefix ?_)
      exact ⟨k, by rw [List.append_assoc, List.singleton_append]⟩
  refine ⟨hne, fun c hc => ?_, hbegins, hlongest⟩
  have hlength := hlongest _ hc (begins_utf8EncodeChar c)
  have hfront := List.prefix_of_prefix_length_le hc (List.prefix_append m rest) hlength
  rcases hbegins with hone | ⟨d, hd⟩
  · have hpos := length_utf8EncodeChar_pos c
    exact hchar c (hfront.eq_of_length (by omega))
  · obtain rfl := eq_of_isPrefix_utf8EncodeChar (hfront.trans hd)
    exact hchar c (hfront.eq_of_length (Nat.le_antisymm hlength hd.length_le))

theorem IllFormedPart.length_le {m rest m' rest' : Bytes} (h : IllFormedPart m rest)
    (h' : IllFormedPart m' rest') (heq : m ++ rest = m' ++ rest') : m'.length ≤ m.length := by
  rcases h'.single_or_begins with hone | hbegins
  · rw [hone]
    exact List.length_pos_iff.mpr h.ne_nil
  · exact h.longest m' (heq ▸ List.prefix_append m' rest') hbegins

/-- Bytes have one maximal ill-formed part in front at most. -/
theorem IllFormedPart.eq_of_append_eq {m rest m' rest' : Bytes} (h : IllFormedPart m rest)
    (h' : IllFormedPart m' rest') (heq : m ++ rest = m' ++ rest') : m = m' ∧ rest = rest' :=
  List.append_inj heq (Nat.le_antisymm (h'.length_le h heq.symm) (h.length_le h' heq))

/-! ### Where the reader stops -/

/-- Bytes that can be completed to what a lead byte promised. -/
def Completable (more : Nat) (low high : UInt8) (payload : Nat) (m : Bytes) : Prop :=
  ∃ k code, continuation more low high payload (m ++ k) = (some code, [])

theorem completable_nil {more payload : Nat} {low high : UInt8} (hrange : low ≤ high) :
    Completable more low high payload [] := by
  induction more generalizing low high payload with
  | zero => exact ⟨[], payload, rfl⟩
  | succ more ih =>
    -- the least byte of the range will do, and so on with the full range
    obtain ⟨k, code, hk⟩ := @ih (payload * 64 + low.toNat % 64) 0x80 0xBF (by decide)
    refine ⟨low :: k, code, ?_⟩
    rw [List.nil_append, continuation, if_pos ⟨UInt8.le_refl low, hrange⟩]
    exact hk

theorem completable_cons_iff {more payload : Nat} {low high b : UInt8} {m : Bytes} :
    Completable (more + 1) low high payload (b :: m) ↔
      (low ≤ b ∧ b ≤ high) ∧ Completable more 0x80 0xBF (payload * 64 + b.toNat % 64) m := by
  simp only [Completable, List.cons_append, continuation]
  by_cases hb : low ≤ b ∧ b ≤ high <;> simp [hb]

/-- What is consumed of an unfinished sequence can be completed, and no longer with the byte behind
it. -/
theorem exists_completable_of_continuation {more payload : Nat} {low high : UInt8}
    {bs left : Bytes} (hrange : low ≤ high)
    (h : continuation more low high payload bs = (none, left)) :
    ∃ m, bs = m ++ left ∧ Completable more low high payload m ∧
      ∀ b ∈ left.head?, ¬Completable more low high payload (m ++ [b]) := by
  induction more generalizing low high payload bs with
  | zero =>
    rw [continuation_zero] at h
    cases h
  | succ more ih =>
    cases bs with
    | nil =>
      rw [continuation] at h
      cases h
      exact ⟨[], rfl, completable_nil hrange, fun b hb => by cases hb⟩
    | cons b rest =>
      rw [continuation] at h
      by_cases hb : low ≤ b ∧ b ≤ high
      · rw [if_pos hb] at h
        obtain ⟨m, rfl, hm, hstop⟩ := ih (by decide) h
        refine ⟨b :: m, rfl, completable_cons_iff.mpr ⟨hb, hm⟩, fun b' hb' h' => ?_⟩
        exact hstop b' hb' (completable_cons_iff.mp h').2
      · rw [if_neg hb] at h
        cases h
        refine ⟨[], rfl, completable_nil hrange, fun b' hb' h' => ?_⟩
        obtain rfl := Option.some.inj hb'
        exact hb (completable_cons_iff.mp h').1

theorem confined_le {p q : Prop} [Decidable p] [Decidable q] {low high : UInt8} (hpq : p → ¬q)
    (hlow : low ≤ 0xBF) (hhigh : 0x80 ≤ high) :
    (if p then low else 0x80) ≤ if q then high else 0xBF := by
  by_cases hp : p
  · rwa [if_pos hp, if_neg (hpq hp)]
  · rw [if_neg hp]
    split
    · exact hhigh
    · decide

/-- The range behind a lead byte is not empty: no byte narrows it from both sides. -/
theorem Lead.low_le_high {b : UInt8} {lead : Lead} (h : ofByte? b = some lead) :
    lead.low ≤ lead.high := by
  rw [ofByte?] at h
  split at h
  · cases h
  split at h
  · obtain rfl := Option.some.inj h
    exact (by decide : (0x80 : UInt8) ≤ 0xBF)
  split at h
  · obtain rfl := Option.some.inj h
    exact confined_le (by rintro rfl; decide) (by decide) (by decide)
  split at h
  · obtain rfl := Option.some.inj h
    exact confined_le (by rintro rfl; decide) (by decide) (by decide)
  · cases h

theorem begins_cons_iff {b : UInt8} {m : Bytes} :
    Begins (b :: m) ↔ ∃ k c, next b (m ++ k) = (some c, []) := by
  constructor
  · rintro ⟨c, k, hk⟩
    have hnext := next_of_utf8EncodeChar_eq hk.symm []
    rw [List.append_nil] at hnext
    exact ⟨k, c, hnext⟩
  · rintro ⟨k, c, hnext⟩
    have hform := eq_utf8EncodeChar_append_of_next hnext
    rw [List.append_nil] at hform
    exact ⟨c, k, hform⟩

theorem begins_cons_iff_of_lead {b : UInt8} {lead : Lead} (hlead : Lead.ofByte? b = some lead)
    {m : Bytes} :
    Begins (b :: m) ↔ Completable lead.more lead.low lead.high lead.payload m := by
  rw [begins_cons_iff]
  simp only [next_eq_some_iff_of_lead hlead]
  constructor
  · rintro ⟨k, c, code, hread, -⟩
    exact ⟨k, code, hread⟩
  · rintro ⟨k, code, hread⟩
    exact ⟨k, _, code, hread, rfl⟩

/-- A byte that is no character and leads to none begins nothing. -/
theorem not_begins_of_ofByte?_eq_none {b : UInt8} (hb : 0x80 ≤ b.toNat)
    (h : Lead.ofByte? b = none) (m : Bytes) : ¬Begins (b :: m) := by
  rw [begins_cons_iff]
  rintro ⟨k, c, hnext⟩
  have hone : ¬b < 0x80 := fun hlt => Nat.not_lt.mpr hb (UInt8.lt_iff_toNat_lt.mp hlt)
  rw [next, if_neg hone, h] at hnext
  cases hnext

/-- The two ways in which the reader meets no character: at a byte that leads to none, and in a
sequence that does not go on as its lead byte promised. -/
theorem next_eq_none_inv {b : UInt8} {rest left : Bytes} (h : next b rest = (none, left)) :
    (0x80 ≤ b.toNat ∧ Lead.ofByte? b = none ∧ rest = left) ∨
      ∃ lead, Lead.ofByte? b = some lead ∧
        continuation lead.more lead.low lead.high lead.payload rest = (none, left) := by
  rw [next] at h
  by_cases hone : b < 0x80
  · rw [if_pos hone] at h
    cases h
  rw [if_neg hone] at h
  cases hlead : Lead.ofByte? b with
  | none =>
    rw [hlead] at h
    have hhigh : 0x80 ≤ b.toNat := Nat.not_lt.mp fun hlt => hone (UInt8.lt_iff_toNat_lt.mpr hlt)
    exact .inl ⟨hhigh, rfl, (Prod.mk.inj h).2⟩
  | some lead =>
    rw [hlead] at h
    obtain ⟨hcode, hleft⟩ := Prod.mk.inj h
    exact .inr ⟨lead, rfl, Prod.ext (Option.map_eq_none_iff.mp hcode) hleft⟩

/-- Where the reader meets no character, it consumes the maximal ill-formed part. -/
theorem exists_illFormedPart_of_next {b : UInt8} {rest left : Bytes}
    (h : next b rest = (none, left)) : ∃ m, b :: rest = m ++ left ∧ IllFormedPart m left := by
  -- what was consumed is no character, or the reader would have met it
  have hchar (m : Bytes) (hm : rest = m ++ left) (c : Char) :
      String.utf8EncodeChar c ≠ b :: m := by
    intro hc
    subst hm
    cases (next_of_utf8EncodeChar_eq hc left).symm.trans h
  rcases next_eq_none_inv h with ⟨hhigh, hlead, rfl⟩ | ⟨lead, hlead, hread⟩
  · exact ⟨[b], rfl, .of_head (List.cons_ne_nil b []) (.inl rfl) (hchar [] rfl)
      fun _ _ => not_begins_of_ofByte?_eq_none hhigh hlead _⟩
  · obtain ⟨m, hm, hdone, hstop⟩ :=
      exists_completable_of_continuation (Lead.low_le_high hlead) hread
    have hbegins : Begins (b :: m) := (begins_cons_iff_of_lead hlead).mpr hdone
    refine ⟨b :: m, congrArg (b :: ·) hm,
      .of_head (List.cons_ne_nil b m) (.inr hbegins) (hchar m hm) fun b' hb' h' => ?_⟩
    exact hstop b' hb' ((begins_cons_iff_of_lead hlead).mp h')

/-! ### The laws of the forgiving reader -/

/-- Bytes that are not empty start with a character or with a maximal ill-formed part. -/
theorem exists_char_or_illFormedPart {bs : Bytes} (hne : bs ≠ []) :
    (∃ c rest, bs = String.utf8EncodeChar c ++ rest) ∨
      ∃ m rest, bs = m ++ rest ∧ IllFormedPart m rest := by
  cases bs with
  | nil => exact absurd rfl hne
  | cons b rest =>
    cases hpiece : (next b rest).1 with
    | none =>
      obtain ⟨m, hm, hpart⟩ := exists_illFormedPart_of_next (Prod.ext hpiece rfl)
      exact .inr ⟨m, _, hm, hpart⟩
    | some c => exact .inl ⟨c, _, eq_utf8EncodeChar_append_of_next (Prod.ext hpiece rfl)⟩

theorem pieces_append_of_illFormedPart {m rest : Bytes} (h : IllFormedPart m rest) :
    pieces (m ++ rest) = none :: pieces rest := by
  cases hbytes : m ++ rest with
  | nil => exact absurd (List.append_eq_nil_iff.mp hbytes).1 h.ne_nil
  | cons b left =>
    have hpiece : (next b left).1 = none := by
      cases hpiece : (next b left).1 with
      | none => rfl
      | some c =>
        have hform := eq_utf8EncodeChar_append_of_next (Prod.ext hpiece rfl)
        exact absurd ⟨_, hform.symm.trans hbytes.symm⟩ (h.not_char c)
    obtain ⟨m', hm', hpart⟩ := exists_illFormedPart_of_next (Prod.ext hpiece rfl)
    obtain ⟨-, hrest⟩ := h.eq_of_append_eq hpart (hbytes.trans hm')
    rw [pieces, hpiece, hrest]

/-- A text is given back, whatever stands behind its UTF-8 form. -/
theorem lossy_encode_append (t : String) (rest : Bytes) :
    lossy (encode t ++ rest) = t ++ lossy rest := by
  have hshown : (t.toList.map some).map (·.getD '\uFFFD') = t.toList := by
    simp [Function.comp_def]
  rw [lossy, encode, pieces_encodeChars_append, List.map_append, String.ofList_append, hshown,
    String.ofList_toList, lossy]

theorem lossy_encode (t : String) : lossy (encode t) = t := by
  simpa using lossy_encode_append t []

/-- A maximal ill-formed part is shown as one mark. -/
theorem lossy_append_of_illFormedPart {m rest : Bytes} (h : IllFormedPart m rest) :
    lossy (m ++ rest) = "\uFFFD" ++ lossy rest := by
  rw [lossy, pieces_append_of_illFormedPart h, List.map_cons, ← List.singleton_append,
    String.ofList_append]
  rfl

theorem encode_singleton (c : Char) : encode (String.singleton c) = String.utf8EncodeChar c := by
  simp [encode]

/-- No other function obeys the laws of the forgiving reader. -/
theorem eq_lossy_of_laws {R : Bytes → String} (hnil : R [] = "")
    (htext : ∀ t rest, R (encode t ++ rest) = t ++ R rest)
    (hpart : ∀ m rest, IllFormedPart m rest → R (m ++ rest) = "\uFFFD" ++ R rest) : R = lossy := by
  funext bs
  -- by the length of the bytes, as each law takes a part off that is not empty
  induction hn : bs.length using Nat.strongRecOn generalizing bs with
  | ind n ih =>
    subst hn
    by_cases hne : bs = []
    · rw [hne, hnil, lossy_nil]
    rcases exists_char_or_illFormedPart hne with ⟨c, rest, rfl⟩ | ⟨m, rest, rfl, hm⟩
    · have hlt : rest.length < (String.utf8EncodeChar c ++ rest).length := by
        rw [List.length_append]
        exact Nat.lt_add_of_pos_left (length_utf8EncodeChar_pos c)
      rw [← encode_singleton, htext, ih _ hlt rest rfl, lossy_encode_append]
    · have hlt : rest.length < (m ++ rest).length := by
        rw [List.length_append]
        exact Nat.lt_add_of_pos_left (List.length_pos_iff.mpr hm.ne_nil)
      rw [hpart m rest hm, ih _ hlt rest rfl, lossy_append_of_illFormedPart hm]

/-! ### The ways to go wrong -/

/-- The first bytes of the UTF-8 form of a character, but not all of them. -/
structure CutShort (m : Bytes) : Prop where
  ne_nil : m ≠ []
  of_char : ∃ c, m <+: String.utf8EncodeChar c ∧ m ≠ String.utf8EncodeChar c

/-- Two to four bytes that look like a sequence, with the code that they carry, whether or not it
may be written like this. -/
inductive Spread : Bytes → Nat → Prop
  | two {b b1 : UInt8} (lead : 0xC0 ≤ b.toNat ∧ b.toNat < 0xE0) (next : IsContinuation b1) :
    Spread [b, b1] (b.toNat % 32 * 64 + b1.toNat % 64)
  | three {b b1 b2 : UInt8} (lead : 0xE0 ≤ b.toNat ∧ b.toNat < 0xF0) (next : IsContinuation b1)
    (last : IsContinuation b2) :
    Spread [b, b1, b2] ((b.toNat % 16 * 64 + b1.toNat % 64) * 64 + b2.toNat % 64)
  | four {b b1 b2 b3 : UInt8} (lead : 0xF0 ≤ b.toNat ∧ b.toNat < 0xF8) (next : IsContinuation b1)
    (third : IsContinuation b2) (last : IsContinuation b3) :
    Spread [b, b1, b2, b3]
      (((b.toNat % 8 * 64 + b1.toNat % 64) * 64 + b2.toNat % 64) * 64 + b3.toNat % 64)

/-- Bytes that carry a code, but may not. -/
inductive Misfit (bs : Bytes) : Prop
  | overlong (c : Char) (shape : Spread bs c.val.toNat)
    (shorter : (String.utf8EncodeChar c).length < bs.length)
  | surrogate {code : Nat} (shape : Spread bs code) (reserved : 0xD800 ≤ code ∧ code ≤ 0xDFFF)
  | beyond {code : Nat} (shape : Spread bs code) (large : 0x10FFFF < code)

theorem isContinuation_of_utf8EncodeChar_eq {c : Char} {b : UInt8} {bs : Bytes}
    (h : String.utf8EncodeChar c = b :: bs) : ∀ x ∈ bs, IsContinuation x := by
  have hseq := sequence_utf8EncodeChar c
  rw [h] at hseq
  generalize c.val.toNat = code at hseq
  cases hseq with
  | one lead => exact fun x hx => absurd hx List.not_mem_nil
  | two lead next => simpa using next
  | three lead next long scalar last => simpa using ⟨next, last⟩
  | four lead next long inside third last => simpa using ⟨next, third, last⟩

/-- A form that is cut short is a maximal ill-formed part unless a continuation byte is behind
it. -/
theorem CutShort.illFormedPart {m rest : Bytes} (h : CutShort m)
    (hrest : ∀ b ∈ rest.head?, ¬IsContinuation b) : IllFormedPart m rest := by
  obtain ⟨c, hbegins, hcut⟩ := h.of_char
  refine .of_head h.ne_nil (.inr ⟨c, hbegins⟩) ?_ ?_
  · rintro d rfl
    exact hcut (congrArg String.utf8EncodeChar (eq_of_isPrefix_utf8EncodeChar hbegins))
  · rintro b hb ⟨d, k, hk⟩
    cases m with
    | nil => exact h.ne_nil rfl
    | cons b0 m =>
      rw [List.append_assoc, List.cons_append] at hk
      exact hrest b hb (isContinuation_of_utf8EncodeChar_eq hk.symm b (by simp))

theorem not_begins_of_isContinuation {b : UInt8} (h : IsContinuation b) (m : Bytes) :
    ¬Begins (b :: m) := by
  obtain ⟨hlow, hhigh⟩ := h
  refine not_begins_of_ofByte?_eq_none hlow ?_ m
  rw [Lead.ofByte?_eq, if_pos (by omega)]

/-- The byte behind a lead byte keeps to the range that this confines it to. -/
theorem range_of_begins {b b1 low high : UInt8} {more payload : Nat} {m : Bytes}
    (hlead : Lead.ofByte? b = some ⟨more + 1, low, high, payload⟩) (h : Begins (b :: b1 :: m)) :
    low.toNat ≤ b1.toNat ∧ b1.toNat ≤ high.toNat := by
  obtain ⟨hrange, -⟩ := completable_cons_iff.mp ((begins_cons_iff_of_lead hlead).mp h)
  simpa only [UInt8.le_iff_toNat_le] using hrange

namespace Spread

/-- Bytes that look like a sequence are one if their first two bytes begin one. -/
theorem sequence_of_begins {b b1 : UInt8} {bs : Bytes} {code : Nat}
    (h : Spread (b :: b1 :: bs) code) (hbegins : Begins [b, b1]) :
    Sequence (b :: b1 :: bs) code := by
  have hlead := Lead.ofByte?_eq b
  cases h with
  | two lead next =>
    by_cases hlow : b.toNat < 0xC2
    · rw [if_pos hlow] at hlead
      exact absurd hbegins (not_begins_of_ofByte?_eq_none (by omega) hlead _)
    · exact .two ⟨by omega, lead.2⟩ next
  | three lead next last =>
    rw [if_neg (by omega), if_neg (by omega), if_pos (by omega)] at hlead
    obtain ⟨-, hlong, hscalar⟩ :=
      (confined_iff (by decide) (by decide)).mp (range_of_begins hlead hbegins)
    exact .three lead next hlong hscalar last
  | four lead next third last =>
    by_cases hhigh : b.toNat < 0xF5
    · rw [if_neg (by omega), if_neg (by omega), if_neg (by omega), if_pos (by omega)] at hlead
      obtain ⟨-, hlong, hinside⟩ :=
        (confined_iff (by decide) (by decide)).mp (range_of_begins hlead hbegins)
      exact .four ⟨lead.1, hhigh⟩ next hlong hinside third last
    · rw [if_neg (by omega), if_neg (by omega), if_neg (by omega), if_neg (by omega)] at hlead
      exact absurd hbegins (not_begins_of_ofByte?_eq_none (by omega) hlead _)

/-- A lead byte that leads to more bytes, and the continuation bytes behind it. -/
theorem exists_eq_cons {bs : Bytes} {code : Nat} (h : Spread bs code) :
    ∃ b b1 tail, bs = b :: b1 :: tail ∧ 0xC0 ≤ b.toNat ∧ ∀ x ∈ b1 :: tail, IsContinuation x := by
  cases h with
  | two lead next => exact ⟨_, _, _, rfl, lead.1, by simpa using next⟩
  | three lead next last => exact ⟨_, _, _, rfl, by omega, by simpa using ⟨next, last⟩⟩
  | four lead next third last =>
    exact ⟨_, _, _, rfl, by omega, by simpa using ⟨next, third, last⟩⟩

end Spread

theorem Misfit.exists_spread {bs : Bytes} (h : Misfit bs) :
    ∃ code, Spread bs code ∧ ¬Sequence bs code := by
  cases h with
  | overlong c shape shorter =>
    refine ⟨_, shape, fun hseq => ?_⟩
    have hc : Char.ofNat c.val.toNat = c := c.ofNat_toNat
    rw [hseq.eq_utf8EncodeChar, hc] at shorter
    exact Nat.lt_irrefl _ shorter
  | surrogate shape reserved =>
    refine ⟨_, shape, fun hseq => ?_⟩
    have hvalid := hseq.isValidChar
    rw [Nat.isValidChar] at hvalid
    omega
  | beyond shape large =>
    refine ⟨_, shape, fun hseq => ?_⟩
    have hvalid := hseq.isValidChar
    rw [Nat.isValidChar] at hvalid
    omega

/-- One mark for each of a number of ill-formed parts. -/
def marks (n : Nat) : String := String.ofList (List.replicate n '\uFFFD')

theorem marks_succ (n : Nat) : marks (n + 1) = "\uFFFD" ++ marks n := by
  rw [marks, List.replicate_succ, ← List.singleton_append, String.ofList_append]
  rfl

/-- A byte that begins nothing together with the byte behind it is shown as one mark. -/
theorem lossy_cons_of_not_begins {b : UInt8} {rest : Bytes} (hb : 0x80 ≤ b.toNat)
    (hstop : ∀ b' ∈ rest.head?, ¬Begins [b, b']) : lossy (b :: rest) = "\uFFFD" ++ lossy rest := by
  refine lossy_append_of_illFormedPart (.of_head (List.cons_ne_nil b []) (.inl rfl) ?_ hstop)
  intro c hc
  have hseq := sequence_utf8EncodeChar c
  rw [hc] at hseq
  generalize c.val.toNat = code at hseq
  cases hseq with
  | one lead => omega

theorem lossy_append_of_isContinuation {bs : Bytes} (h : ∀ b ∈ bs, IsContinuation b)
    (rest : Bytes) : lossy (bs ++ rest) = marks bs.length ++ lossy rest := by
  induction bs with
  | nil => simp [marks]
  | cons b bs ih =>
    obtain ⟨hb, hbs⟩ := List.forall_mem_cons.mp h
    rw [List.cons_append, lossy_cons_of_not_begins hb.1 fun _ _ =>
      not_begins_of_isContinuation hb _, ih hbs, List.length_cons, marks_succ, String.append_assoc]

/-- Each byte of a misfit is shown as a mark of its own. -/
theorem Misfit.lossy_append {bs : Bytes} (h : Misfit bs) (rest : Bytes) :
    lossy (bs ++ rest) = marks bs.length ++ lossy rest := by
  obtain ⟨code, hshape, hseq⟩ := h.exists_spread
  obtain ⟨b, b1, tail, rfl, hb, htail⟩ := hshape.exists_eq_cons
  have hstop : ∀ b' ∈ (b1 :: tail ++ rest).head?, ¬Begins [b, b'] := by
    intro b' hb' hbegins
    obtain rfl := Option.some.inj hb'
    exact hseq (hshape.sequence_of_begins hbegins)
  calc
    lossy (b :: (b1 :: tail ++ rest))
    _ = "\uFFFD" ++ (marks (b1 :: tail).length ++ lossy rest) := by
      rw [lossy_cons_of_not_begins (by omega) hstop, lossy_append_of_isContinuation htail]
    _ = marks ((b1 :: tail).length + 1) ++ lossy rest := by rw [marks_succ, String.append_assoc]

end Utf8

end OverrunHarness
