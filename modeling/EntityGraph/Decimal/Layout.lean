import EntityGraph.Decimal.Shortest

/-!
How a floating point number is written: its shortest decimal, positionally within a range of
exponents and with an exponent outside it. A positional number always has a decimal point.
-/
namespace EntityGraph.Decimal

/-- A way of writing numbers. -/
structure Layout where
  /-- The lowest exponent of the first digit that is written positionally. -/
  lowest : Int
  /-- The first exponent above it that is not. -/
  beyond : Int
  /-- The least number of digits of an exponent. -/
  exponentWidth : Nat

/-- The display layout: positional from 10⁻⁴ up to 10¹⁶, exponents of at least two digits. -/
def Layout.display : Layout := ⟨-4, 16, 2⟩

/-- The layout of written documents: positional from 10⁻⁵ up to 10¹⁶, exponents unpadded. -/
def Layout.document : Layout := ⟨-5, 16, 1⟩

/-- Drops the zeros at the end of a list of digits. -/
def dropTrailingZeros (ds : List Char) : List Char :=
  (ds.reverse.dropWhile (· == '0')).reverse

/-- Writes the digits `d₁ d₂ …` of `d₁.d₂… * 10 ^ e`. -/
def Layout.writeDigits (l : Layout) (ds : List Char) (e : Int) : List Char :=
  if l.lowest ≤ e && e < l.beyond then
    match e with
    | .ofNat k =>
      if ds.length ≤ k + 1 then ds ++ List.replicate (k + 1 - ds.length) '0' ++ ['.', '0']
      else ds.take (k + 1) ++ '.' :: ds.drop (k + 1)
    | .negSucc k => '0' :: '.' :: List.replicate k '0' ++ ds
  else
    let head := match ds with
      | [] => []
      | [d] => [d]
      | d :: rest => d :: '.' :: rest
    let power := Nat.toDigits 10 e.natAbs
    head ++ 'e' :: (if e < 0 then '-' else '+') ::
      List.replicate (l.exponentWidth - power.length) '0' ++ power

/-- Writes a number. -/
def Layout.write (l : Layout) (x : Float) : String :=
  match Reading.of x with
  | .notNumber => "nan"
  | .infinite negative => if negative then "-inf" else "inf"
  | .finite negative mantissa scale =>
    let body :=
      if mantissa = 0 then ['0', '.', '0']
      else
        let s := shortest mantissa scale
        let ds := Nat.toDigits 10 s.digits
        l.writeDigits (dropTrailingZeros ds) (s.exponent + ds.length - 1)
    String.ofList (if negative then '-' :: body else body)

/-- Whether a number is neither infinite nor the result of an undefined operation. -/
def isFinite (x : Float) : Bool :=
  match Reading.of x with
  | .finite .. => true
  | _ => false

/-- The whole number that a finite number without a fraction is. -/
def toInt? (x : Float) : Option Int :=
  match Reading.of x with
  | .finite negative mantissa scale =>
    match scaleTwo mantissa 1 scale with
    | (n, d) =>
      if n % d = 0 then some (if negative then -((n / d : Nat) : Int) else ((n / d : Nat) : Int))
      else none
  | _ => none

end EntityGraph.Decimal
