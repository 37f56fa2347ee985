import EntityGraph.Decimal.Digits
import EntityGraph.Text.Blank
import EntityGraph.Text.Digit
import EntityGraph.Value.Basic

/-!
Literals: the arguments of directives. `true`, `false`, `null` and numbers have a value of their
own; anything else is a text, whose quotation marks are taken off.
-/
namespace EntityGraph.Schema

/-- A quotation mark of either kind. -/
def isQuoteMark (c : Char) : Bool :=
  c == '"' || c == '\''

/-- A text without the blanks around it and without the quotation marks inside those. -/
def unquoteChars (cs : List Char) : List Char :=
  Text.stripChars isQuoteMark (Text.trimChars cs)

/-- A text without the blanks around it and without the quotation marks inside those. -/
def unquote (s : String) : String :=
  String.ofList (unquoteChars s.toList)

/-- The digits of a numeral: its sign, the whole part, and the fraction if there is a point. -/
structure Numeral where
  negative : Bool
  whole : List Nat
  fraction : Option (List Nat)
  deriving DecidableEq, Repr

/-- The values of digits of any script, if a text has nothing else and is not empty. -/
def digits? (cs : List Char) : Option (List Nat) :=
  if cs.isEmpty then none else cs.mapM Text.digitValue?

/-- Whether a text begins with a minus sign, and what stands behind it. -/
def signOf : List Char → Bool × List Char
  | '-' :: rest => (true, rest)
  | cs => (false, cs)

/-- Reads a numeral: an optional minus sign, digits, and optionally a point and digits. -/
def numeral? (cs : List Char) : Option Numeral := do
  let (negative, cs) := signOf cs
  let whole := cs.takeWhile (· != '.')
  match cs.dropWhile (· != '.') with
  | _ :: fraction => return ⟨negative, ← digits? whole, some (← digits? fraction)⟩
  | [] => return ⟨negative, ← digits? whole, none⟩

/-- The value of a numeral. -/
def Numeral.value (n : Numeral) : Except Decimal.DigitExcess Value :=
  match n.fraction with
  | some fraction => .ok (.float (Decimal.pointNumber n.negative n.whole fraction 0))
  | none => (Decimal.wholeNumber n.negative n.whole).map .int

/-- The value of a literal. -/
def literal (s : String) : Except Decimal.DigitExcess Value :=
  let raw := Text.trim s
  if raw = "true" then .ok (.bool true)
  else if raw = "false" then .ok (.bool false)
  else if raw = "null" then .ok .null
  else match numeral? raw.toList with
    | some n => n.value
    | none => .ok (.text (unquote raw))

end EntityGraph.Schema
