import EntityGraph.Text.Utf
import EntityGraph.Value.Basic

/-!
Portable values: those that a JSON document can hold. In the portable form of a value numbers that
are not finite are null, bytes, days and times are texts, and keys are texts. A value that holds
itself, or bytes that are no text, has none.
-/
namespace EntityGraph.Value

/-- The text of a byte sequence; one that is not UTF-8 is displayed. -/
def bytesText (bs : List UInt8) : String :=
  match Text.utf8? bs with
  | some cs => String.ofList cs
  | none => Text.quotedBytes bs

/-- The text that a key becomes. -/
def keyText : Value → String
  | bool b => if b then "true" else "false"
  | float x => if Decimal.isFinite x then Decimal.Layout.display.write x else "None"
  | text s => s
  | bytes bs => bytesText bs
  | moment t => t.iso
  | pair a b => keyText a ++ "," ++ keyText b
  | v => v.toText

mutual

/-- The portable form of a value. -/
def portable : Value → Value
  | null => null
  | bool b => bool b
  | int n => int n
  | float x => if Decimal.isFinite x then float x else null
  | text s => text s
  | bytes bs => text (bytesText bs)
  | date d => text d.iso
  | moment t => text t.iso
  | list xs => list (portableAll xs)
  | pair a b => list [portable a, portable b]
  | set xs => list (portableAll xs)
  | mapping es => mapping (portableEntries es)
  | again v => portable v

/-- The portable forms of values. -/
def portableAll : List Value → List Value
  | [] => []
  | x :: rest => portable x :: portableAll rest

/-- The portable forms of entries. -/
def portableEntries : List (Value × Value) → List (Value × Value)
  | [] => []
  | (k, v) :: rest => (text (keyText k), portable v) :: portableEntries rest

end

/-- Why a value has no portable form. -/
inductive PortableFault where
  /-- It holds itself. -/
  | endless
  /-- It holds values in values in values too often. -/
  | tooDeep
  /-- It holds bytes that are no text. -/
  | undecodable (f : Text.DecodeFault)
  deriving DecidableEq, Repr

/-- The message about a value without a portable form. -/
def PortableFault.message : PortableFault → String
  | endless => "Circular reference detected (id repeated)"
  | tooDeep => "Circular reference detected (depth exceeded)"
  | undecodable f =>
    "'utf-8' codec can't decode byte 0x" ++ String.ofList (Text.hexDigits 2 f.first) ++
      " in position " ++ toString f.start ++ ": invalid utf-8"

/-- The most values around a value. -/
def maxAround : Nat := 253

/-- What is wrong with bytes. -/
def bytesFault? (bs : List UInt8) : Option PortableFault :=
  match Text.decode .utf8 false 0 bs with
  | .ok _ => none
  | .error f => some (.undecodable f)

/-- What is wrong with a key. -/
def keyFault? : Value → Option PortableFault
  | bytes bs => bytesFault? bs
  | pair a b => keyFault? a <|> keyFault? b
  | _ => none

mutual

/-- What is first wrong with a value that `around` values stand around. -/
def faultAt? (around : Nat) : Value → Option PortableFault
  | again _ => some .endless
  | bytes bs => tooDeepAt? around <|> bytesFault? bs
  | list xs | set xs => tooDeepAt? around <|> firstFault? (around + 1) xs
  | pair a b => tooDeepAt? around <|> faultAt? (around + 1) a <|> faultAt? (around + 1) b
  | mapping es => tooDeepAt? around <|> firstEntryFault? (around + 1) es
  | _ => tooDeepAt? around
where
  tooDeepAt? (around : Nat) : Option PortableFault :=
    if maxAround < around then some .tooDeep else none

/-- What is first wrong with values. -/
def firstFault? (around : Nat) : List Value → Option PortableFault
  | [] => none
  | x :: rest => faultAt? around x <|> firstFault? around rest

/-- What is first wrong with entries. -/
def firstEntryFault? (around : Nat) : List (Value × Value) → Option PortableFault
  | [] => none
  | (k, v) :: rest => keyFault? k <|> faultAt? around v <|> firstEntryFault? around rest

end

/-- Refuses values that have no portable form. -/
def checkPortable (vs : List Value) : Except PortableFault Unit :=
  match firstFault? 0 vs with
  | none => .ok ()
  | some f => .error f

mutual

/-- A value in which every key stands once: the first place and the last value count. -/
def distinctKeys : Value → Value
  | list xs => list (distinctKeysAll xs)
  | mapping es => mapping (distinctEntries [] es)
  | v => v

/-- Values in which every key stands once. -/
def distinctKeysAll : List Value → List Value
  | [] => []
  | x :: rest => distinctKeys x :: distinctKeysAll rest

/-- Entries with every key once, behind the ones that were read. -/
def distinctEntries (done : Entries) : List (Value × Value) → Entries
  | [] => done
  | (k, v) :: rest => distinctEntries (putEntry done k (distinctKeys v)) rest

end

end EntityGraph.Value
