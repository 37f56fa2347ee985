import EntityGraph.Text.Base64
import EntityGraph.Text.Blank
import EntityGraph.Value.Basic
import EntityGraph.Yaml.Fault
import EntityGraph.Yaml.Tag

/-!
The values of scalars: what a text of a type stands for.
-/
namespace EntityGraph.Yaml

/-! ## Numbers -/

/-- A text in lower case. -/
def lowered (cs : List Char) : List Char :=
  cs.map Char.toLower

/-- A sign and the rest. -/
def signed (cs : List Char) : Bool × List Char :=
  match cs with
  | '-' :: rest => (true, rest)
  | '+' :: rest => (false, rest)
  | _ => (false, cs)

/-- The value of a digit, of a letter for those above nine. -/
def digitIn? (base : Nat) (c : Char) : Option Nat :=
  let value := match Text.digitValue? c with
    | some n => some n
    | none =>
      if 'a' ≤ c && c ≤ 'z' then some (c.toNat - 0x61 + 10)
      else if 'A' ≤ c && c ≤ 'Z' then some (c.toNat - 0x41 + 10)
      else none
  value.filter (· < base)

/-- A number without the mark of its base. -/
def withoutMark (base : Nat) (cs : List Char) : List Char :=
  match cs with
  | '0' :: x :: rest =>
    let mark := if base = 16 then 'x' else if base = 8 then 'o' else 'b'
    if base != 10 && x.toLower == mark then rest else cs
  | _ => cs

/-- The whole number that a text writes in a base. -/
def wholeIn (base : Nat) (cs : List Char) : Except Fault Int :=
  let (negative, body) := signed (Text.trimChars cs)
  let body := withoutMark base body
  match if body.isEmpty then none else body.mapM (digitIn? base) with
  | none => .error (.noWhole base (String.ofList cs))
  | some ds =>
    if base = 10 then (Decimal.wholeNumber negative ds).mapError .digits
    else
      let n : Int := Decimal.natOfDigits base ds
      .ok (if negative then -n else n)

/-- The sum of parts that count sixty times more from right to left. -/
def sexagesimal (parts : List Int) : Int :=
  parts.foldl (fun sum n => sum * 60 + n) 0

/-- The value of a whole number. -/
def wholeValue (text : List Char) : Except Fault Int := do
  let cs := text.filter (· != '_')
  if cs.isEmpty then throw .emptyNumber
  let (negative, body) := signed cs
  let sign (n : Int) : Int := if negative then -n else n
  match body with
  | [] => throw .emptyNumber
  | ['0'] => return 0
  | '0' :: 'b' :: rest => return sign (← wholeIn 2 rest)
  | '0' :: 'x' :: rest => return sign (← wholeIn 16 rest)
  | '0' :: _ => return sign (← wholeIn 8 body)
  | _ =>
    if body.contains ':' then
      return sign (sexagesimal (← (Tag.colonParts body).mapM (wholeIn 10)))
    else return sign (← wholeIn 10 body)

/-- The digits of a text that has nothing else. -/
def allDigits? (cs : List Char) : Option (List Nat) :=
  cs.mapM Text.digitValue?

/-- The number that a text writes with a point and an exponent. -/
def pointed? (negative : Bool) (cs : List Char) : Option Float := do
  let mantissa := cs.takeWhile (· != 'e')
  let exponent ← match cs.dropWhile (· != 'e') with
    | [] => some (0 : Int)
    | _ :: rest =>
      let (negative, ds) := signed rest
      if ds.isEmpty then none
      else (allDigits? ds).map fun ds =>
        let n : Int := Decimal.natOfDigits 10 ds
        if negative then -n else n
  let whole ← allDigits? (mantissa.takeWhile (· != '.'))
  let fraction ← allDigits? ((mantissa.dropWhile (· != '.')).drop 1)
  if whole.isEmpty && fraction.isEmpty then none
  else return Decimal.pointNumber negative whole fraction exponent

/-- What is not finite. -/
def infinite (negative : Bool) : Float :=
  if negative then -1.0 / 0.0 else 1.0 / 0.0

/-- The number that a text in lower case writes. -/
def numberOf (text : List Char) : Except Fault Float :=
  let (negative, cs) := signed (Text.trimChars text)
  let found := match String.ofList cs with
    | "inf" | "infinity" => some (infinite negative)
    | "nan" => some (0.0 / 0.0)
    | _ => pointed? negative cs
  match found with
  | some x => .ok x
  | none => .error (.noNumber (String.ofList text))

/-- The most parts of a number with a point. The first of more would count for more than any
    number. -/
def maxSexagesimalParts : Nat := 174

/-- The sum of parts that count sixty times more from right to left. The parts are added up from
    the right. -/
def sexagesimalFloat (parts : List Float) : Except Fault Float :=
  if maxSexagesimalParts < parts.length then .error .tooLarge
  else
    let (sum, _) := parts.reverse.foldl
      (fun (sum, weight) x => (sum + x * Decimal.ofInt weight, weight * 60))
      ((0.0 : Float), (1 : Int))
    .ok sum

/-- The value of a number with a point. -/
def numberValue (text : List Char) : Except Fault Float := do
  let cs := lowered (text.filter (· != '_'))
  if cs.isEmpty then throw .emptyNumber
  let (negative, body) := signed cs
  let sign (x : Float) : Float := if negative then -1.0 * x else x
  match String.ofList body with
  | ".inf" => return infinite negative
  | ".nan" => return 0.0 / 0.0
  | _ =>
    if body.contains ':' then
      return sign (← sexagesimalFloat (← (Tag.colonParts body).mapM numberOf))
    else return sign (← numberOf body)

/-! ## Times -/

/-- The number of some digits. -/
def natOf (ds : List Char) : Nat :=
  Decimal.natOfDigits 10 (ds.map fun d => d.toNat - 0x30)

/-- The minutes between a zone and universal time. -/
def zoneMinutes? : Tag.ZoneText → Option Int
  | .absent => none
  | .universal => some 0
  | .offset negative hour minute =>
    let n : Int := natOf hour * 60 + natOf minute
    some (if negative then -n else n)

/-- The value of a day or a point in time. -/
def timeValue (text : List Char) : Except Fault Value :=
  match Tag.timeText? (Tag.withoutLineEnd text) with
  | none => .error .noMoment
  | some t =>
    let year := natOf t.year
    let month := natOf t.month
    let day := natOf t.day
    match t.clock with
    | none => ((Date.make year month day).mapError .calendar).map .date
    | some (clock, zone) =>
      let micro := natOf ((clock.fraction ++ List.replicate 6 '0').take 6)
      ((Moment.make year month day (natOf clock.hour) (natOf clock.minute) (natOf clock.second)
        micro (zoneMinutes? zone)).mapError .calendar).map .moment

/-! ## Scalars -/

/-- The value of a flag. -/
def flagValue (text : List Char) : Except Fault Value :=
  match [("yes", true), ("no", false), ("true", true), ("false", false), ("on", true),
      ("off", false)].lookup (String.ofList (lowered text)) with
  | some b => .ok (.bool b)
  | none => .error .noFlag

/-- The value of a byte sequence. -/
def bytesValue (text : List Char) : Except Fault Value :=
  if text.all fun c => c.toNat < 0x80 then
    match Text.base64? text with
    | some bs => .ok (.bytes bs)
    | none => .error .malformed
  else .error .malformed

/-- The value of a text of a type. -/
def scalarValue (tag : Tag) (s : String) : Except Fault Value :=
  match tag with
  | .null => .ok .null
  | .bool => flagValue s.toList
  | .int => (wholeValue s.toList).map .int
  | .float => (numberValue s.toList).map .float
  | .text => .ok (.text s)
  | .binary => bytesValue s.toList
  | .timestamp => timeValue s.toList
  | .sequence | .mapping | .set | .pairs | .merge | .value | .unknown => .error .malformed

end EntityGraph.Yaml
