import EntityGraph.Decimal.Digits
import EntityGraph.Decimal.Layout
import EntityGraph.Text.Quoted
import EntityGraph.Value.Calendar

/-!
Values of documents: what a JSON or YAML document, or a caller, may put anywhere. Everything with a
fixed shape is read from them once and then has a type of its own.
-/
namespace EntityGraph

/-- A value of a document. Mappings keep the order of their entries. -/
inductive Value where
  | null
  | bool (b : Bool)
  | int (n : Int)
  | float (x : Float)
  | text (s : String)
  | bytes (bs : List UInt8)
  | date (d : Date)
  | moment (t : Moment)
  | list (xs : List Value)
  | pair (a b : Value)
  | set (xs : List Value)
  | mapping (entries : List (Value × Value))
  /-- A list or a mapping that is met again in itself, with what it holds as far as one looks. -/
  | again (v : Value)

/-- The entries of a mapping. -/
abbrev Entries := List (Value × Value)

namespace Value

/-- The name of the kind of a value, as messages give it. -/
def kindName : Value → String
  | null => "NoneType"
  | bool _ => "bool"
  | int _ => "int"
  | float _ => "float"
  | text _ => "str"
  | bytes _ => "bytes"
  | date _ => "date"
  | moment _ => "datetime"
  | list _ => "list"
  | pair .. => "tuple"
  | set _ => "set"
  | mapping _ => "dict"
  | again v => v.kindName

/-- Whether a value counts as given: null, false, zero and everything empty do not. -/
def isGiven : Value → Bool
  | null => false
  | bool b => b
  | int n => n != 0
  | float x => match Decimal.Reading.of x with
    | .finite _ mantissa _ => mantissa != 0
    | _ => true
  | text s => !s.isEmpty
  | bytes bs => !bs.isEmpty
  | list xs => !xs.isEmpty
  | set xs => !xs.isEmpty
  | mapping es => !es.isEmpty
  | date _ | moment _ | pair .. => true
  | again v => v.isGiven

/-- A value, unless it counts as not given. -/
def given? (v : Value) : Option Value :=
  if v.isGiven then some v else none

/-- The members of a value that has some: the elements of a list, the keys of a mapping, the
    characters of a text, the bytes of a byte sequence. -/
def members? : Value → Option (List Value)
  | list xs | set xs => some xs
  | pair a b => some [a, b]
  | mapping es => some (es.map Prod.fst)
  | text s => some (s.toList.map fun c => text (String.singleton c))
  | bytes bs => some (bs.map fun b => int b.toNat)
  | again v => v.members?
  | _ => none

/-- Whether a value may be the key of a mapping. -/
def isKey : Value → Bool
  | list _ | set _ | mapping _ | again _ => false
  | pair a b => a.isKey && b.isKey
  | _ => true

/-- A value, whether it is met again in itself or not. -/
def plain : Value → Value
  | again v => v
  | v => v

/-! ## Displays -/

/-- The display of a value that is met again in itself. -/
def displayAgain : Value → String
  | mapping _ => "\x7b...\x7d"
  | _ => "[...]"

mutual

/-- The display of a value that stands alone or in another one. -/
def displayIn (inside : Bool) : Value → String
  | null => "None"
  | bool b => if b then "True" else "False"
  | int n => toString n
  | float x => Decimal.Layout.display.write x
  | text s => Text.quoted s
  | bytes bs => Text.quotedBytes bs
  | date d => d.display
  | moment t => t.display
  | list xs => "[" ++ ", ".intercalate (displayAll xs) ++ "]"
  | pair a b => "(" ++ displayIn true a ++ ", " ++ displayIn true b ++ ")"
  | set xs => match xs with
    | [] => "set()"
    | xs => "\x7b" ++ ", ".intercalate (displayAll xs) ++ "\x7d"
  | mapping es => "\x7b" ++ ", ".intercalate (displayEntries es) ++ "\x7d"
  | again v => if inside then displayAgain v else displayIn false v

/-- The displays of values. -/
def displayAll : List Value → List String
  | [] => []
  | x :: rest => displayIn true x :: displayAll rest

/-- The displays of entries. -/
def displayEntries : List (Value × Value) → List String
  | [] => []
  | (k, v) :: rest => (displayIn true k ++ ": " ++ displayIn true v) :: displayEntries rest

end

/-- The display of a value, with quoted texts. -/
def display (v : Value) : String :=
  v.displayIn false

/-- The text of a value: a text itself, and the display of anything else. -/
def toText : Value → String
  | text s => s
  | date d => d.iso
  | moment t => t.isoWith " " "+00:00"
  | v => v.display

mutual

/-- Whether a whole number in the display of a value has too many digits to be written. -/
def overlongIn (inside : Bool) : Value → Bool
  | int n => 10 ^ Decimal.maxDigits ≤ n.natAbs
  | list xs | set xs => overlongAny xs
  | pair a b => overlongIn true a || overlongIn true b
  | mapping es => overlongAnyEntry es
  | again v => !inside && overlongIn false v
  | _ => false

/-- Whether a whole number in the displays of values has too many digits. -/
def overlongAny : List Value → Bool
  | [] => false
  | x :: rest => overlongIn true x || overlongAny rest

/-- Whether a whole number in the displays of entries has too many digits. -/
def overlongAnyEntry : List (Value × Value) → Bool
  | [] => false
  | (k, v) :: rest => overlongIn true k || overlongIn true v || overlongAnyEntry rest

end

/-- The text of a value that can be written. -/
def writtenText? (v : Value) : Option String :=
  if v.overlongIn false then none else some v.toText

@[simp] theorem writtenText?_text (s : String) : writtenText? (text s) = some s := rfl

/-! ## Keys -/

/-- The whole number that a value equals, if there is one: truth values count as one and zero. -/
def asNumber? : Value → Option Int
  | bool b => some (if b then 1 else 0)
  | int n => some n
  | float x => Decimal.toInt? x
  | _ => none

/-- Whether two values are the same key. Numbers are compared by value. -/
def sameKey : Value → Value → Bool
  | null, null => true
  | text s, text t => s == t
  | bytes a, bytes b => a == b
  | date a, date b => a == b
  | moment a, moment b => a.same b
  | pair a b, pair c d => a.sameKey c && b.sameKey d
  | v, w => match v.asNumber?, w.asNumber? with
    | some m, some n => m == n
    | none, none => match v, w with
      | float x, float y => x.toBits == y.toBits
      | _, _ => false
    | _, _ => false

/-- Entries with one more: a key that is there already keeps its place and gets the new value. -/
def putEntry (es : Entries) (k v : Value) : Entries :=
  match es with
  | [] => [(k, v)]
  | (k', v') :: rest => if k'.sameKey k then (k', v) :: rest else (k', v') :: putEntry rest k v

/-- The value of a text key. -/
def find? (es : Entries) (key : String) : Option Value :=
  (es.find? fun e => match e.1 with
    | text s => s == key
    | _ => false).map Prod.snd

/-- The value of a text key; null if there is none. -/
def find (es : Entries) (key : String) : Value :=
  (find? es key).getD null

end Value

end EntityGraph
