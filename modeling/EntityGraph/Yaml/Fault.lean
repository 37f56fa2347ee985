import EntityGraph.Decimal.Digits
import EntityGraph.Text.Quoted
import EntityGraph.Value.Calendar

/-!
Faults of YAML documents. Most documents that cannot be read are malformed; some scalars have a
shape that promises a value and then have none.
-/
namespace EntityGraph.Yaml

/-- Why a text is no document. -/
inductive Fault where
  | malformed
  /-- A whole number with too many digits. -/
  | digits (e : Decimal.DigitExcess)
  /-- A text that is no whole number in a base. -/
  | noWhole (base : Nat) (text : String)
  /-- A text that is no number. -/
  | noNumber (text : String)
  /-- A number that no character has. -/
  | noCharacter
  /-- A number that is too large for what it is to stand for. -/
  | tooLarge
  /-- A day or a time that the calendar does not have. -/
  | calendar (f : CalendarFault)
  /-- A text that is no flag, tagged as one. -/
  | noFlag
  /-- An empty text, tagged as a number. -/
  | emptyNumber
  /-- A text that is no time, tagged as one. -/
  | noMoment
  /-- A mapping that is tagged as a time. -/
  | noMomentText
  /-- A document with too many levels. -/
  | tooDeep
  deriving DecidableEq, Repr

/-- The message about a scalar without a value, if there is one. -/
def Fault.message? : Fault → Option String
  | digits e => some e.message
  | noWhole base text =>
    some ("invalid literal for int() with base " ++ toString base ++ ": " ++ Text.quoted text)
  | noNumber text => some ("could not convert string to float: " ++ Text.quoted text)
  | noCharacter => some "chr() arg not in range(0x110000)"
  | calendar f => some f.message
  | malformed | noFlag | emptyNumber | noMoment | noMomentText | tooLarge | tooDeep => none

end EntityGraph.Yaml
