import EntityGraph.Text.Quoted

/-!
Faults of records: what keeps values from being the attributes of a part of a graph, and where.
-/
namespace EntityGraph.Record

/-- A step on the way into a value: to an attribute, or to a member of a list or mapping. -/
inductive Step where
  | name (s : String)
  | index (n : Int)
  deriving DecidableEq, Repr

/-- What is wrong with a value. -/
inductive FaultKind where
  | textType | textTooShort | textEncoding
  | wholeType | wholeText | wholeSize | wholeFraction | finiteNumber
  | flagType | flagText
  | listType | listTooShort | mappingType | recordType
  | member | belowLeast | repeated (texts : List String)
  | missing | unknownAttribute
  | noSuchAttribute | frozen
  deriving DecidableEq, Repr

namespace FaultKind

/-- The code of a fault. -/
def label : FaultKind → String
  | textType => "string_type"
  | textTooShort => "string_too_short"
  | textEncoding => "string_unicode"
  | wholeType => "int_type"
  | wholeText => "int_parsing"
  | wholeSize => "int_parsing_size"
  | wholeFraction => "int_from_float"
  | finiteNumber => "finite_number"
  | flagType => "bool_type"
  | flagText => "bool_parsing"
  | listType => "list_type"
  | listTooShort => "too_short"
  | mappingType => "dict_type"
  | recordType => "model_type"
  | member => "enum"
  | belowLeast => "greater_than_equal"
  | repeated _ => "value_error"
  | missing => "missing"
  | unknownAttribute => "extra_forbidden"
  | noSuchAttribute => "no_such_attribute"
  | frozen => "frozen_instance"

/-- The message that comes with some faults. -/
def message? : FaultKind → Option String
  | repeated texts => some ("Value error, Duplicate enum values detected: " ++ Text.quotedList texts)
  | _ => none

end FaultKind

/-- A fault at a place in a value. -/
structure Fault where
  path : List Step
  kind : FaultKind
  deriving DecidableEq, Repr

/-- A fault seen from one step further out. -/
def Fault.under (step : Step) (f : Fault) : Fault :=
  { f with path := step :: f.path }

/-- The faults that keep a value from being a part of the given title. -/
structure Invalid where
  title : String
  faults : List Fault
  deriving DecidableEq, Repr

end EntityGraph.Record
