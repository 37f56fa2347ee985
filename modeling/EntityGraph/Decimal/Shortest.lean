import EntityGraph.Decimal.Binary

/-!
The shortest decimal that reads back: of all decimals that round to a number, one with the fewest
digits, and among those the nearest. A grid of `10 ^ step` holds such a decimal exactly if one of
the two grid points around the number does.
-/
namespace EntityGraph.Decimal

/-- Compares `a * 10 ^ e` with `b`. -/
def compareScaled (a : Nat) (e : Int) (b den : Nat) : Ordering :=
  match e with
  | .ofNat k => compare (a * Nat.pow 10 k * den) b
  | .negSucc k => compare (a * den) (b * Nat.pow 10 (k + 1))

/-- The interval of the numbers that round to `mantissa * 2 ^ scale`, in quarters of `2 ^ scale`, as
    numerators over one denominator: the lower end, the number itself and the upper end. -/
structure Neighbourhood where
  low : Nat
  middle : Nat
  high : Nat
  den : Nat
  closed : Bool

/-- The interval around a number. Below a power of two the grid is twice as fine. -/
def Neighbourhood.around (mantissa : Nat) (scale : Int) : Neighbourhood :=
  let below := if mantissa = Nat.pow 2 52 && -1074 < scale then 1 else 2
  let quarter (quarters : Nat) := (scaleTwo quarters 1 (scale - 2)).1
  ⟨quarter (4 * mantissa - below), quarter (4 * mantissa), quarter (4 * mantissa + 2),
    (scaleTwo 1 1 (scale - 2)).2, mantissa % 2 == 0⟩

/-- Whether a grid point rounds to the number. -/
def Neighbourhood.holds (v : Neighbourhood) (point : Nat) (step : Int) : Bool :=
  let left := compareScaled point step v.low v.den
  let right := compareScaled point step v.high v.den
  (left == .gt || (v.closed && left == .eq)) && (right == .lt || (v.closed && right == .eq))

/-- The last grid point at or below the number. -/
def Neighbourhood.gridFloor (v : Neighbourhood) (step : Int) : Nat :=
  match step with
  | .ofNat k => v.middle / (v.den * Nat.pow 10 k)
  | .negSucc k => v.middle * Nat.pow 10 (k + 1) / v.den

/-- The grid point of a step that stands for the number, if there is one: the nearer of its two
    neighbours, the even one at equal distance. -/
def Neighbourhood.onGrid? (v : Neighbourhood) (step : Int) : Option Nat :=
  let below := v.gridFloor step
  match v.holds below step, v.holds (below + 1) step with
  | false, false => none
  | true, false => some below
  | false, true => some (below + 1)
  | true, true =>
    -- the half-way point between the two, times two
    match compareScaled (2 * below + 1) step (2 * v.middle) v.den with
    | .lt => some (below + 1)
    | .gt => some below
    | .eq => some (if below % 2 = 0 then below else below + 1)

/-- How many decimal digits a number has. -/
def digitCount (n : Nat) : Nat :=
  (Nat.toDigits 10 n).length

/-- The exponent of the first decimal digit of `num / den`. -/
def leadingExponent (num den : Nat) : Int :=
  let e : Int := (digitCount num : Int) - digitCount den
  if compareScaled 1 e num den == .gt then e - 1 else e

/-- A decimal `digits * 10 ^ exponent`. -/
structure Scientific where
  digits : Nat
  exponent : Int
  deriving DecidableEq, Repr

/-- Tries grids of `count`, `count + 1`, … digits. -/
def shortestFrom (v : Neighbourhood) (top : Int) : Nat → Nat → Scientific
  | 0, count => ⟨v.gridFloor (top - count + 1), top - count + 1⟩
  | fuel + 1, count =>
    let step := top - count + 1
    match v.onGrid? step with
    | some point => ⟨point, step⟩
    | none => shortestFrom v top fuel (count + 1)

/-- The shortest decimal of a positive number; seventeen digits always suffice. -/
def shortest (mantissa : Nat) (scale : Int) : Scientific :=
  let v := Neighbourhood.around mantissa scale
  shortestFrom v (leadingExponent v.middle v.den) 17 1

end EntityGraph.Decimal
