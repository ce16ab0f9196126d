/-!
# Real numbers in text

The texts that are read as floating-point numbers: a sign that may be missing, and then a name for
what is no finite number, or digits with a point among them and an exponent behind them. Either
side of the point may be empty, but not both.
-/

namespace OverrunHarness

namespace Real

/-- A text without the sign at its beginning. -/
def unsigned : List Char → List Char
  | '+' :: cs | '-' :: cs => cs
  | cs => cs

/-- The names of what is no finite number, in lower case. -/
def names : List String := ["inf", "infinity", "nan"]

/-- Whether a text is an exponent, or nothing. -/
def isExponent : List Char → Bool
  | [] => true
  | c :: cs =>
    let digits := unsigned cs
    (c == 'e' || c == 'E') && digits ≠ [] && digits.all Char.isDigit

/-- Whether a text is a number without a sign. -/
def isMagnitude (cs : List Char) : Bool :=
  let whole := cs.takeWhile Char.isDigit
  let (fraction, rest) := match cs.dropWhile Char.isDigit with
    | '.' :: rest => (rest.takeWhile Char.isDigit, rest.dropWhile Char.isDigit)
    | rest => ([], rest)
  (whole ≠ [] || fraction ≠ []) && isExponent rest

/-- Whether a text is read as a number. -/
def isNumber (cs : List Char) : Bool :=
  let body := unsigned cs
  String.ofList (body.map Char.toLower) ∈ names || isMagnitude body

end Real

end OverrunHarness
