/-!
Binary floating point numbers of 64 bits as exact numbers: a finite one is `mantissa * 2 ^ scale`
with a sign. `nearestBits` goes the other way and rounds a quotient to the nearest such number, a
tie to the even mantissa.
-/
namespace EntityGraph.Decimal

/-- What a floating point number stands for. -/
inductive Reading where
  | finite (negative : Bool) (mantissa : Nat) (scale : Int)
  | infinite (negative : Bool)
  | notNumber
  deriving DecidableEq, Repr

/-- The reading of the 64 bits of a number. -/
def Reading.ofBits (bits : UInt64) : Reading :=
  let n := bits.toNat
  let negative := decide (Nat.pow 2 63 ≤ n)
  let exponent : Nat := n / Nat.pow 2 52 % Nat.pow 2 11
  let fraction : Nat := n % Nat.pow 2 52
  if exponent = 2047 then
    if fraction = 0 then .infinite negative else .notNumber
  else if exponent = 0 then .finite negative fraction (-1074)
  else .finite negative (Nat.pow 2 52 + fraction) ((exponent : Int) - 1075)

/-- The reading of a number. -/
def Reading.of (x : Float) : Reading :=
  Reading.ofBits x.toBits

/-- A quotient rounded to a whole number, a tie to the even neighbour. -/
def roundQuotient (num den : Nat) : Nat :=
  let q := num / den
  let twice := 2 * (num % den)
  if twice < den then q
  else if den < twice then q + 1
  else if q % 2 = 0 then q else q + 1

/-- A fraction times a power of two, as numerator and denominator. -/
def scaleTwo (num den : Nat) (e : Int) : Nat × Nat :=
  match e with
  | .ofNat k => (num * Nat.pow 2 k, den)
  | .negSucc k => (num, den * Nat.pow 2 (k + 1))

/-- The bits of the nonnegative number nearest to `num / den`. -/
def nearestBits (num den : Nat) : Nat :=
  if num = 0 then 0
  else
    let guess : Int := (num.log2 : Int) - den.log2 - 52
    let (n, d) := scaleTwo num den (-guess)
    let scale := max (if n / d < Nat.pow 2 52 then guess - 1 else guess) (-1074)
    let (n, d) := scaleTwo num den (-scale)
    let mantissa := roundQuotient n d
    if mantissa < Nat.pow 2 52 then mantissa
    else
      let bits := (scale + 1074).toNat * Nat.pow 2 52 + mantissa
      if bits < 2047 * Nat.pow 2 52 then bits else 2047 * Nat.pow 2 52

/-- The number nearest to a fraction, with a sign. -/
def nearest (negative : Bool) (num den : Nat) : Float :=
  Float.ofBits (UInt64.ofNat ((if negative then Nat.pow 2 63 else 0) + nearestBits num den))

/-- The number nearest to `mantissa * 10 ^ exponent`. Exponents far outside the range of the numbers
    are decided by the number of digits alone. -/
def ofDecimal (negative : Bool) (mantissa digits : Nat) (exponent : Int) : Float :=
  if mantissa = 0 || (digits : Int) + exponent < -400 then nearest negative 0 1
  else if 400 < exponent then nearest negative (Nat.pow 2 2000) 1
  else
    match exponent with
    | .ofNat k => nearest negative (mantissa * Nat.pow 10 k) 1
    | .negSucc k => nearest negative mantissa (Nat.pow 10 (k + 1))

/-- The number nearest to a whole number. -/
def ofInt (n : Int) : Float :=
  nearest (decide (n < 0)) n.natAbs 1

end EntityGraph.Decimal
