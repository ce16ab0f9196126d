/-!
# Overruns

An **overrun** is a store past the end of a buffer that a run has decided to make: which branch
asked for it, how far from the start of the buffer it lands, and the byte it writes.

Design points:

* The two branches write at **distances of different parity** (`Branch.distance`). Only buffers of
  odd length are ever overrun, so the parity of an offset names its branch.
* An offset is a 64-bit word on the machine. It is kept as a natural number and the bound is
  checked where the sum is made (`Overrun.beyond`): the sum is exact, or there is no overrun.
* An overrun has two printed forms: a line for the plan (`Overrun.line`) and a record that names
  its fields (`Overrun.record`).
-/

namespace OverrunHarness

/-- First byte that arms the `prefixA` branch: the letter `a`. -/
def prefixByte : UInt8 := 0x61

/-- The byte that every overrun writes: the letter `x`. -/
def overrunByte : UInt8 := 0x78

/-- Offsets are below this bound. -/
def offsetLimit : Nat := 0x10000000000000000

/-- The condition that produced an overrun. -/
inductive Branch
  /-- The first byte is `prefixByte`. -/
  | prefixA
  /-- The random draw was zero. -/
  | random
  deriving Repr, DecidableEq

namespace Branch

/-- Every branch, in the order in which a plan lists them. -/
def all : List Branch := [.prefixA, .random]

/-- The name that plans and log lines use. -/
def name : Branch → String
  | prefixA => "prefix-a"
  | random => "random"

/-- The name that records use. -/
def tag : Branch → String
  | prefixA => "PrefixA"
  | random => "Random"

/-- Distance past the end of the buffer that the branch writes at. -/
def distance : Branch → Nat
  | prefixA => 5
  | random => 2

/-- The branch of a given name. -/
def ofName? (s : String) : Option Branch := all.find? (·.name == s)

@[simp] theorem ofName?_name (b : Branch) : ofName? b.name = some b := by
  cases b <;> decide

end Branch

/-- A store past the end of a buffer, as planned. -/
structure Overrun where
  branch : Branch
  /-- Distance from the start of the buffer. -/
  offset : Nat
  value : UInt8
  deriving Repr, DecidableEq

/-- The offset that a branch asks for does not fit a machine word. -/
structure OffsetOverflow where
  branch : Branch
  deriving Repr, DecidableEq

/-- The wording of an overflow; it is the same for both branches. -/
def OffsetOverflow.message (_ : OffsetOverflow) : String := "attempt to add with overflow"

/-- The two lower-case hexadecimal digits of a byte, the high one first. -/
def Hex.digits (b : UInt8) : List Char :=
  [Nat.digitChar (b.toNat / 16), Nat.digitChar (b.toNat % 16)]

namespace Overrun

/-- The overrun of a branch behind a buffer of `len` bytes. -/
def beyond (branch : Branch) (len : Nat) : Except OffsetOverflow Overrun :=
  if len + branch.distance < offsetLimit then
    .ok ⟨branch, len + branch.distance, overrunByte⟩
  else .error ⟨branch⟩

/-- The overrun as a line of a plan. -/
def line (o : Overrun) : String :=
  "branch=" ++ o.branch.name ++ " offset=" ++ o.offset.repr ++ " byte=0x" ++
    String.ofList (Hex.digits o.value)

/-- The overrun as a record that names its fields. -/
def record (o : Overrun) : String :=
  "Overrun \x7b branch: " ++ o.branch.tag ++ ", offset: " ++ o.offset.repr ++
    ", value: " ++ o.value.toNat.repr ++ " \x7d"

end Overrun

end OverrunHarness
