/-!
# UTF-8 text and raw bytes

Paths, arguments and environment values are raw bytes and need not be text. This module reads
such bytes as UTF-8.

Design points:

* `Utf8.pieces` cuts a byte string into its **well-formed characters and its ill-formed
  stretches**, without deciding what to do about the latter. The strict reading (`decode?`) and
  the forgiving one (`lossy`) are both one-line views of it.
* An ill-formed stretch is as long as it can be while it still begins some well-formed sequence,
  and at least one byte long. `Lead` holds the only facts that this needs: how many bytes a lead
  byte asks for and which range the first of them is confined to. The narrowed ranges are what
  rules out overlong forms, surrogates and values past the last code point.
-/

namespace OverrunHarness

/-- A string of raw bytes: the content of a file, a path, an argument, an environment value. -/
abbrev Bytes := List UInt8

namespace Utf8

/-! ### Writing -/

/-- The UTF-8 form of a list of characters. -/
def encodeChars (cs : List Char) : Bytes := cs.flatMap String.utf8EncodeChar

/-- The UTF-8 form of a text. -/
def encode (s : String) : Bytes := encodeChars s.toList

@[simp] theorem encodeChars_nil : encodeChars [] = [] := rfl

@[simp] theorem encodeChars_cons (c : Char) (cs : List Char) :
    encodeChars (c :: cs) = String.utf8EncodeChar c ++ encodeChars cs := rfl

@[simp] theorem encodeChars_append (cs ds : List Char) :
    encodeChars (cs ++ ds) = encodeChars cs ++ encodeChars ds := by
  simp [encodeChars]

@[simp] theorem encode_append (s t : String) : encode (s ++ t) = encode s ++ encode t := by
  simp [encode]

/-! ### Reading -/

/-- What the first byte of a sequence of two to four bytes promises. -/
structure Lead where
  /-- Bytes still to come. -/
  more : Nat
  /-- Least value of the next byte. -/
  low : UInt8
  /-- Greatest value of the next byte. -/
  high : UInt8
  /-- The bits of the character that the lead byte itself carries. -/
  payload : Nat
  deriving Repr, DecidableEq

/-- The promise of a byte from 80 up; `none` for a byte that begins no sequence. -/
def Lead.ofByte? (b : UInt8) : Option Lead :=
  if b < 0xC2 then none
  else if b < 0xE0 then some ⟨1, 0x80, 0xBF, b.toNat % 32⟩
  else if b < 0xF0 then
    some ⟨2, if b = 0xE0 then 0xA0 else 0x80, if b = 0xED then 0x9F else 0xBF, b.toNat % 16⟩
  else if b < 0xF5 then
    some ⟨3, if b = 0xF0 then 0x90 else 0x80, if b = 0xF4 then 0x8F else 0xBF, b.toNat % 8⟩
  else none

/-- Takes `more` continuation bytes and appends their six bits each to `payload`. The first must
lie in `low … high`, the others in `80 … BF`. Reading stops in front of the first byte that does
not fit; the answer holds what was not consumed. -/
def continuation : (more : Nat) → (low high : UInt8) → (payload : Nat) → Bytes → Option Nat × Bytes
  | 0, _, _, payload, rest => (some payload, rest)
  | _ + 1, _, _, _, [] => (none, [])
  | more + 1, low, high, payload, b :: rest =>
    if low ≤ b ∧ b ≤ high then
      continuation more 0x80 0xBF (payload * 64 + b.toNat % 64) rest
    else (none, b :: rest)

theorem length_continuation_le (more : Nat) (low high : UInt8) (payload : Nat) (bs : Bytes) :
    (continuation more low high payload bs).2.length ≤ bs.length := by
  fun_induction continuation more low high payload bs with
  | case1 => simp
  | case2 => simp
  | case3 _ _ _ _ _ _ _ ih => exact Nat.le_succ_of_le ih
  | case4 => simp

/-- The first piece of `b :: rest`: a character, or `none` for an ill-formed stretch, together
with the bytes behind it. -/
def next (b : UInt8) (rest : Bytes) : Option Char × Bytes :=
  if b < 0x80 then (some (Char.ofNat b.toNat), rest)
  else
    match Lead.ofByte? b with
    | none => (none, rest)
    | some lead =>
      let (code, left) := continuation lead.more lead.low lead.high lead.payload rest
      (code.map Char.ofNat, left)

theorem length_next_le (b : UInt8) (rest : Bytes) : (next b rest).2.length ≤ rest.length := by
  rw [next]
  split
  · simp
  · split
    · simp
    · exact length_continuation_le ..

/-- The characters and the ill-formed stretches (`none`) of a byte string, in order. -/
def pieces : Bytes → List (Option Char)
  | [] => []
  | b :: rest => (next b rest).1 :: pieces (next b rest).2
  termination_by bs => bs.length
  decreasing_by exact Nat.lt_succ_of_le (length_next_le b rest)

@[simp] theorem pieces_nil : pieces [] = [] := by rw [pieces]

/-- The text that the bytes are the UTF-8 form of, if there is one. -/
def decode? (bs : Bytes) : Option String :=
  ((pieces bs).mapM id).map String.ofList

/-- The bytes as text, with `U+FFFD` for each ill-formed stretch. -/
def lossy (bs : Bytes) : String :=
  String.ofList ((pieces bs).map (·.getD '\uFFFD'))

@[simp] theorem lossy_nil : lossy [] = "" := by simp [lossy]

/-! ### Positions in bytes -/

/-- Bytes that a text takes up. -/
def width (cs : List Char) : Nat := (cs.map Char.utf8Size).foldr (· + ·) 0

/-- The text behind a number of bytes, unless they end within a character or there are fewer. -/
def dropBytes? : Nat → List Char → Option (List Char)
  | 0, cs => some cs
  | _ + 1, [] => none
  | n + 1, c :: cs => if c.utf8Size ≤ n + 1 then dropBytes? (n + 1 - c.utf8Size) cs else none

/-- The text that a number of bytes holds, unless they end within a character or there are
fewer. -/
def takeBytes? : Nat → List Char → Option (List Char)
  | 0, _ => some []
  | _ + 1, [] => none
  | n + 1, c :: cs =>
    if c.utf8Size ≤ n + 1 then (takeBytes? (n + 1 - c.utf8Size) cs).map (c :: ·) else none

end Utf8

end OverrunHarness
