import EntityGraph.Decimal.Digits
import EntityGraph.Text.Utf
import EntityGraph.Value.Basic

/-!
Reading JSON documents. Beyond the standard, the numbers `NaN`, `Infinity` and `-Infinity` are read,
and of several entries with one key the last value counts. A malformed document is refused with the
place of the first character that cannot be read.
-/
namespace EntityGraph.Json

/-- What is wrong with a document. -/
inductive Cause where
  | expectedValue | expectedName | expectedColon | expectedComma
  | openText | controlCharacter | badEscape | badCodeEscape
  | extraData | byteOrderMark
  deriving DecidableEq, Repr

/-- The wording of a cause. -/
def Cause.message : Cause → String
  | .expectedValue => "Expecting value"
  | .expectedName => "Expecting property name enclosed in double quotes"
  | .expectedColon => "Expecting ':' delimiter"
  | .expectedComma => "Expecting ',' delimiter"
  | .openText => "Unterminated string starting at"
  | .controlCharacter => "Invalid control character at"
  | .badEscape => "Invalid \\escape"
  | .badCodeEscape => "Invalid \\uXXXX escape"
  | .extraData => "Extra data"
  | .byteOrderMark => "Unexpected UTF-8 BOM (decode using utf-8-sig)"

/-- Why a document was refused: it is malformed at a position, a whole number is too long, or it has
    too many levels. -/
inductive Fault where
  | malformed (cause : Cause) (position : Nat)
  | tooLong (excess : Decimal.DigitExcess)
  | tooDeep
  deriving DecidableEq, Repr

/-- A place in a document: the number of characters in front of it, and the ones behind it. -/
structure Place where
  position : Nat
  rest : List Char

/-- Moves over a number of characters. -/
def Place.skip (p : Place) (n : Nat) : Place :=
  ⟨p.position + n, p.rest.drop n⟩

/-- The blanks of JSON. -/
def isSpace (c : Char) : Bool :=
  c == ' ' || c == '\t' || c == '\n' || c == '\r'

/-- Moves over blanks. -/
def Place.skipSpace (p : Place) : Place :=
  let blanks := p.rest.takeWhile isSpace
  p.skip blanks.length

/-- The value of a hexadecimal digit. -/
def hexValue? (c : Char) : Option Nat :=
  if c.isDigit then some (c.toNat - 0x30)
  else if 'a' ≤ c && c ≤ 'f' then some (c.toNat - 0x57)
  else if 'A' ≤ c && c ≤ 'F' then some (c.toNat - 0x37)
  else none

/-- The code that four hexadecimal digits give; at least one more character must follow. -/
def fourDigits? : List Char → Option Nat
  | a :: b :: c :: d :: _ :: _ => do
    return (((← hexValue? a) * 16 + (← hexValue? b)) * 16 + (← hexValue? c)) * 16 + (← hexValue? d)
  | _ => none

/-- The character that an escape with one letter stands for. -/
def escape? : Char → Option Char
  | '"' => some '"'
  | '\\' => some '\\'
  | '/' => some '/'
  | 'b' => some (Char.ofNat 8)
  | 'f' => some (Char.ofNat 12)
  | 'n' => some '\n'
  | 'r' => some '\r'
  | 't' => some '\t'
  | _ => none

/-- Reads a text whose opening mark stands at `start`. -/
def readTextFrom (start : Nat) :
    Nat → Nat → List Char → List Char → Except Fault (String × Place)
  | 0, _, _, _ => .error (.malformed .openText start)
  | _, _, [], _ => .error (.malformed .openText start)
  | fuel + 1, pos, c :: rest, acc =>
    if c == '"' then .ok (String.ofList acc.reverse, ⟨pos + 1, rest⟩)
    else if c.toNat ≤ 0x1f then .error (.malformed .controlCharacter pos)
    else if c != '\\' then readTextFrom start fuel (pos + 1) rest (c :: acc)
    else match rest with
      | [] => .error (.malformed .openText start)
      | 'u' :: rest =>
        match fourDigits? rest with
        | none => .error (.malformed .badCodeEscape (pos + 1))
        | some n =>
          let after := rest.drop 4
          let single := readTextFrom start fuel (pos + 6) after (Text.codePoint n :: acc)
          if 0xd800 ≤ n && n < 0xdc00 && 7 ≤ after.length then
            match after with
            | '\\' :: 'u' :: low =>
              match fourDigits? low with
              | none => .error (.malformed .badCodeEscape (pos + 7))
              | some m =>
                if 0xdc00 ≤ m && m < 0xe000 then
                  readTextFrom start fuel (pos + 12) (low.drop 4)
                    (Text.codePoint (0x10000 + (n - 0xd800) * 0x400 + (m - 0xdc00)) :: acc)
                else single
            | _ => single
          else single
      | e :: rest =>
        match escape? e with
        | some c => readTextFrom start fuel (pos + 2) rest (c :: acc)
        | none => .error (.malformed .badEscape pos)

/-- Reads a text whose opening mark has been passed, with `fuel` more than the characters left. -/
def readText (fuel : Nat) (p : Place) : Except Fault (String × Place) :=
  readTextFrom (p.position - 1) fuel p.position p.rest []

/-- The values of digits. -/
def digitValues (ds : List Char) : List Nat :=
  ds.map fun c => c.toNat - 0x30

/-- Splits off the digits at the front. -/
def spanDigits (cs : List Char) : List Char × List Char :=
  (cs.takeWhile Char.isDigit, cs.dropWhile Char.isDigit)

/-- The digits of a whole part: a zero stands alone. -/
def wholePart? (cs : List Char) : Option (List Char × List Char) :=
  match cs with
  | '0' :: rest => some (['0'], rest)
  | c :: _ => if c.isDigit then some (spanDigits cs) else none
  | [] => none

/-- A fraction: a point and at least one digit. -/
def fractionPart? (cs : List Char) : Option (List Char × List Char) :=
  match cs with
  | '.' :: rest => match spanDigits rest with
    | ([], _) => none
    | (ds, rest) => some (ds, rest)
  | _ => none

/-- The digits of an exponent and whether it is negative. -/
def exponentPart? (cs : List Char) : Option (Bool × List Char × List Char) :=
  let signed (negative : Bool) (cs : List Char) := match spanDigits cs with
    | ([], _) => none
    | (ds, rest) => some (negative, ds, rest)
  match cs with
  | e :: rest =>
    if e == 'e' || e == 'E' then
      match rest with
      | '-' :: rest => signed true rest
      | '+' :: rest => signed false rest
      | rest => signed false rest
    else none
  | [] => none

/-- Reads a number. -/
def readNumber (p : Place) : Except Fault (Value × Place) :=
  let (negative, cs) := match p.rest with
    | '-' :: rest => (true, rest)
    | rest => (false, rest)
  match wholePart? cs with
  | none => .error (.malformed .expectedValue p.position)
  | some (whole, afterWhole) =>
    let (fraction, afterFraction) := (fractionPart? afterWhole).getD ([], afterWhole)
    let (negativeExponent, exponent, rest) :=
      (exponentPart? afterFraction).getD (false, [], afterFraction)
    let place : Place := p.skip (p.rest.length - rest.length)
    if fraction.isEmpty && exponent.isEmpty then
      match Decimal.wholeNumber negative (digitValues whole) with
      | .ok n => .ok (.int n, place)
      | .error e => .error (.tooLong e)
    else
      let e : Int := Decimal.natOfDigits 10 (digitValues exponent)
      .ok (.float (Decimal.pointNumber negative (digitValues whole) (digitValues fraction)
        (if negativeExponent then -e else e)), place)

/-- The values that are written as words. -/
def wordValues : List (String × Value) := [
  ("null", .null), ("true", .bool true), ("false", .bool false), ("NaN", .float (0.0 / 0.0)),
  ("Infinity", .float (1.0 / 0.0)), ("-Infinity", .float (-1.0 / 0.0))]

/-- The most levels of lists and mappings that a document may have. -/
def maxLevels : Nat := 980

/-- Reads a word or a number. -/
def readAtom (p : Place) : Except Fault (Value × Place) :=
  match wordValues.find? fun w => w.1.toList.isPrefixOf p.rest with
  | some (w, v) => .ok (v, p.skip w.length)
  | none => readNumber p

mutual

/-- Reads a value with at most `levels` levels. -/
def readValue : Nat → (levels : Nat) → Place → Except Fault (Value × Place)
  | 0, _, p => .error (.malformed .expectedValue p.position)
  | fuel + 1, levels, p =>
    match p.rest with
    | '"' :: _ => do
      let (s, p) ← readText fuel (p.skip 1)
      return (.text s, p)
    | '\x7b' :: _ =>
      let p := (p.skip 1).skipSpace
      match levels with
      | 0 => .error .tooDeep
      | levels + 1 => match p.rest with
        | '\x7d' :: _ => .ok (.mapping [], p.skip 1)
        | _ => readEntries fuel levels p []
    | '[' :: _ =>
      let p := (p.skip 1).skipSpace
      match levels with
      | 0 => .error .tooDeep
      | levels + 1 => match p.rest with
        | ']' :: _ => .ok (.list [], p.skip 1)
        | _ => readElements fuel levels p []
    | _ => readAtom p

/-- Reads the elements of a list up to its end. -/
def readElements : Nat → (levels : Nat) → Place → List Value → Except Fault (Value × Place)
  | 0, _, p, _ => .error (.malformed .expectedValue p.position)
  | fuel + 1, levels, p, acc => do
    let (v, p) ← readValue fuel levels p
    let p := p.skipSpace
    match p.rest with
    | ']' :: _ => return (.list (v :: acc).reverse, p.skip 1)
    | ',' :: _ => readElements fuel levels (p.skip 1).skipSpace (v :: acc)
    | _ => throw (.malformed .expectedComma p.position)

/-- Reads the entries of a mapping up to its end. -/
def readEntries : Nat → (levels : Nat) → Place → Entries → Except Fault (Value × Place)
  | 0, _, p, _ => .error (.malformed .expectedName p.position)
  | fuel + 1, levels, p, acc =>
    match p.rest with
    | '"' :: _ => do
      let (key, p) ← readText fuel (p.skip 1)
      let p := p.skipSpace
      match p.rest with
      | ':' :: _ =>
        let (v, p) ← readValue fuel levels (p.skip 1).skipSpace
        let p := p.skipSpace
        let entries := Value.putEntry acc (.text key) v
        match p.rest with
        | '\x7d' :: _ => return (.mapping entries, p.skip 1)
        | ',' :: _ => readEntries fuel levels (p.skip 1).skipSpace entries
        | _ => throw (.malformed .expectedComma p.position)
      | _ => throw (.malformed .expectedColon p.position)
    | _ => .error (.malformed .expectedName p.position)

end

/-- The value of a document. -/
def readDocument (cs : List Char) : Except Fault Value := do
  let (v, p) ← readValue (2 * cs.length + 2) maxLevels (Place.mk 0 cs).skipSpace
  let p := p.skipSpace
  if p.rest.isEmpty then return v
  throw (.malformed .extraData p.position)

/-- The value of a document given as text, which may not begin with a byte order mark. -/
def readString (s : String) : Except Fault Value :=
  let cs := s.toList
  match cs with
  | c :: _ => if c.toNat == 0xfeff then .error (.malformed .byteOrderMark 0) else readDocument cs
  | [] => readDocument cs

/-- The encoding of a document given as bytes, the position of its first byte that counts, and the
    bytes from there. It is told by the byte order mark or by where zeros stand. -/
def encodingOf (bs : List UInt8) : Text.Encoding × Nat × List UInt8 :=
  match bs with
  | 0 :: 0 :: 0xfe :: 0xff :: rest => (.utf32BE, 4, rest)
  | 0xff :: 0xfe :: 0 :: 0 :: rest => (.utf32LE, 4, rest)
  | 0xfe :: 0xff :: rest => (.utf16BE, 2, rest)
  | 0xff :: 0xfe :: rest => (.utf16LE, 2, rest)
  | 0xef :: 0xbb :: 0xbf :: rest => (.utf8, 0, rest)
  | a :: b :: c :: d :: _ =>
    if a == 0 then (if b == 0 then .utf32BE else .utf16BE, 0, bs)
    else if b == 0 then (if c == 0 && d == 0 then .utf32LE else .utf16LE, 0, bs)
    else (.utf8, 0, bs)
  | [a, b] => (if a == 0 then .utf16BE else if b == 0 then .utf16LE else .utf8, 0, bs)
  | _ => (.utf8, 0, bs)

/-- The text of a document given as bytes. -/
def decodeBytes (bs : List UInt8) : Except Text.DecodeFault (List Char) :=
  let (encoding, start, bs) := encodingOf bs
  Text.decode encoding true start bs

/-- The message about a malformed document, with the line and the column of the place. -/
def malformedMessage (cs : List Char) (cause : Cause) (position : Nat) : String :=
  let before := cs.take position
  let line := before.count '\n' + 1
  let column := (before.reverse.takeWhile (· != '\n')).length + 1
  cause.message ++ ": line " ++ toString line ++ " column " ++ toString column ++ " (char " ++
    toString position ++ ")"

end EntityGraph.Json
