import EntityGraph.Decimal.Binary

/-!
Numbers from their decimal digits. A whole number may have at most 4300 digits; a number with a
fraction or an exponent is rounded and has no limit.
-/
namespace EntityGraph.Decimal

/-- The number with the given digits, the leading one first. -/
def natOfDigits (base : Nat) (ds : List Nat) : Nat :=
  ds.foldl (fun n d => n * base + d) 0

/-- The most digits that a whole number may have. -/
def maxDigits : Nat := 4300

/-- A whole number with too many digits. -/
structure DigitExcess where
  digits : Nat
  deriving DecidableEq, Repr

/-- The message about a whole number that is too long. -/
def DigitExcess.message (e : DigitExcess) : String :=
  "Exceeds the limit (" ++ toString maxDigits ++
    " digits) for integer string conversion: value has " ++ toString e.digits ++
    " digits; use sys.set_int_max_str_digits() to increase the limit"

/-- The message about a whole number that has too many digits to be written. -/
def overlongMessage : String :=
  "Exceeds the limit (" ++ toString maxDigits ++
    " digits) for integer string conversion; use sys.set_int_max_str_digits() to increase the limit"

/-- A whole number from its sign and its digits. -/
def wholeNumber (negative : Bool) (ds : List Nat) : Except DigitExcess Int :=
  if maxDigits < ds.length then .error ⟨ds.length⟩
  else
    let n : Int := natOfDigits 10 ds
    .ok (if negative then -n else n)

/-- The number `whole.fraction * 10 ^ exponent`. -/
def pointNumber (negative : Bool) (whole fraction : List Nat) (exponent : Int) : Float :=
  let ds := whole ++ fraction
  ofDecimal negative (natOfDigits 10 ds) ds.length (exponent - fraction.length)

end EntityGraph.Decimal
