import EntityGraph.Decimal.Digits
import EntityGraph.Text.Blank

/-!
Numerals: the texts of whole numbers as people write them. Blanks around a numeral, a plus sign,
zeros in front, a fraction of zeros and single underscores between digits say nothing. What is left
without them has a sign and digits, of which there is a limit.
-/
namespace EntityGraph.Decimal

/-- Why a text is no numeral. -/
inductive NumeralFault where
  | malformed
  /-- There are too many digits, whatever comes behind them. -/
  | tooLong
  deriving DecidableEq, Repr

/-- Whether a character says nothing behind the first zero of a numeral. -/
def isFiller (c : Char) : Bool :=
  c == '0' || c == '_'

/-- A numeral without the zeros in front. Underscores may follow the first of them, and a minus sign
    all of them. Where no other digit is left, the last of them stays. -/
def withoutZeros? : List Char → Option (List Char)
  | [] => none
  | '0' :: rest =>
    let last := (rest.takeWhile isFiller).getLast?.getD '0'
    match rest.dropWhile isFiller with
    | [] => some [last]
    | '.' :: fraction => some (last :: '.' :: fraction)
    | c :: digits => if c.isDigit || c == '-' then some (c :: digits) else none
  | c :: digits => if c.isDigit then some (c :: digits) else none

/-- A numeral without a fraction of zeros, at least one. -/
def withoutFraction (cs : List Char) : List Char :=
  match cs.dropWhile (· != '.') with
  | '.' :: zero :: zeros =>
    if (zero :: zeros).all (· == '0') then cs.takeWhile (· != '.') else cs
  | _ => cs

/-- Whether an underscore follows an underscore. -/
def hasDoubleUnderscore : List Char → Bool
  | '_' :: '_' :: _ => true
  | _ :: rest => hasDoubleUnderscore rest
  | [] => false

/-- A numeral without its underscores, unless there is one at an end or next to another. -/
def withoutUnderscores (cs : List Char) : List Char :=
  if cs.head? == some '_' || cs.getLast? == some '_' || hasDoubleUnderscore cs then cs
  else cs.filter (· != '_')

/-- What is left of a numeral without all that says nothing. -/
def cleaned? (cs : List Char) : Option (List Char) :=
  let signed := match Text.stripChars Text.isWhiteSpace cs with
    | '-' :: rest => (withoutZeros? rest).map ('-' :: ·)
    | '+' :: rest => withoutZeros? rest
    | rest => withoutZeros? rest
  signed.map fun cs => withoutUnderscores (withoutFraction cs)

/-- The number that a minus sign and digits write, a sign counting as one of the digits. -/
def ofDigitText (negative : Bool) (cs : List Char) : Except NumeralFault Int :=
  let digits := cs.takeWhile Char.isDigit
  let n : Int := natOfDigits 10 (digits.map fun d => d.toNat - 0x30)
  match digits with
  | [] => .error .malformed
  | '0' :: _ => if cs.length = 1 then .ok 0 else .error .malformed
  | _ =>
    if maxDigits < digits.length + negative.toNat then .error .tooLong
    else if digits.length < cs.length then .error .malformed
    else .ok (if negative then -n else n)

/-- The number that a numeral writes. -/
def ofNumeral (s : String) : Except NumeralFault Int :=
  match cleaned? s.toList with
  | none => .error .malformed
  | some ('-' :: cs) => ofDigitText true cs
  | some cs => ofDigitText false cs

end EntityGraph.Decimal
