import EntityGraph.Text.Digit

/-!
Tags: the types of nodes. A plain scalar without a tag has the type whose grammar its text follows.
-/
namespace EntityGraph.Yaml

/-- The types of nodes. -/
inductive Tag where
  | null | bool | int | float | text | binary | timestamp
  | sequence | mapping | set | pairs
  /-- A key that brings in the entries of another mapping. -/
  | merge
  /-- A key that stands for the value of its mapping. -/
  | value
  | unknown
  deriving DecidableEq, Repr

namespace Tag

/-- What stands in front of the names of the types. -/
def home : String := "tag:yaml.org,2002:"

/-- The type of a full tag. -/
def ofText (s : String) : Tag :=
  ([("null", null), ("bool", bool), ("int", int), ("float", float), ("str", text),
    ("binary", binary), ("timestamp", timestamp), ("seq", sequence), ("map", mapping), ("set", set),
    ("omap", pairs), ("pairs", pairs), ("merge", merge), ("value", value)].find? fun e =>
      home ++ e.1 == s).elim unknown Prod.snd

/-! ## Grammars -/

/-- The texts of flags. -/
def isFlag (s : String) : Bool :=
  ["yes", "Yes", "YES", "no", "No", "NO", "true", "True", "TRUE", "false", "False", "FALSE",
   "on", "On", "ON", "off", "Off", "OFF"].contains s

/-- The texts of null. -/
def isNull (s : String) : Bool :=
  ["~", "null", "Null", "NULL", ""].contains s

/-- A text without its sign. -/
def unsigned (cs : List Char) : List Char :=
  match cs with
  | '+' :: rest | '-' :: rest => rest
  | _ => cs

/-- A digit or an underscore. -/
def isSpacedDigit (c : Char) : Bool :=
  c.isDigit || c == '_'

/-- Digits with underscores among them, the first one a digit. -/
def isSpacedNumber : List Char → Bool
  | [] => false
  | c :: rest => c.isDigit && rest.all isSpacedDigit

/-- Whether a number of minutes or seconds stands between colons. -/
def isSixtieth : List Char → Bool
  | [c] => c.isDigit
  | [c, d] => '0' ≤ c && c ≤ '5' && d.isDigit
  | _ => false

/-- The parts between colons. -/
def colonParts : List Char → List (List Char)
  | [] => [[]]
  | c :: rest =>
    match colonParts rest with
    | [] => [[c]]
    | part :: parts => if c == ':' then [] :: part :: parts else (c :: part) :: parts

/-- Digits, and sixtieths behind colons. -/
def isSexagesimal (cs : List Char) : Bool :=
  match colonParts cs with
  | first :: second :: rest => isSpacedNumber first && (second :: rest).all isSixtieth
  | _ => false

/-- The texts of whole numbers: binary, octal, decimal, hexadecimal and sexagesimal. -/
def isWhole (cs : List Char) : Bool :=
  match unsigned cs with
  | '0' :: rest => match rest with
    | [] => true
    | 'b' :: ds => !ds.isEmpty && ds.all fun c => c == '0' || c == '1' || c == '_'
    | 'x' :: ds => !ds.isEmpty && ds.all fun c =>
        isSpacedDigit c || ('a' ≤ c && c ≤ 'f') || ('A' ≤ c && c ≤ 'F')
    | ds => ds.all fun c => ('0' ≤ c && c ≤ '7') || c == '_'
  | cs => isSpacedNumber cs || isSexagesimal cs

/-- An exponent with its sign, or nothing. -/
def isExponent : List Char → Bool
  | [] => true
  | e :: sign :: ds => (e == 'e' || e == 'E') && (sign == '+' || sign == '-') && !ds.isEmpty &&
      ds.all Char.isDigit
  | _ => false

/-- Whether a text is some digits and a point with a fraction and an exponent. -/
def isPointed (cs : List Char) : Bool :=
  let whole := cs.takeWhile (· != '.')
  match cs.dropWhile (· != '.') with
  | [] => false
  | _ :: rest => isSpacedNumber whole && isExponent (rest.dropWhile isSpacedDigit)

/-- Whether a text is a point with digits behind it. -/
def isFraction : List Char → Bool
  | '.' :: c :: rest => c.isDigit && isExponent (rest.dropWhile isSpacedDigit)
  | _ => false

/-- Whether a text has sixtieths behind colons, and a point. -/
def isPointedSexagesimal (cs : List Char) : Bool :=
  match cs.dropWhile (· != '.') with
  | [] => false
  | _ :: rest => isSexagesimal (cs.takeWhile (· != '.')) && rest.all isSpacedDigit

/-- The texts of numbers with a point, infinite ones included. -/
def isNumber (cs : List Char) : Bool :=
  let body := unsigned cs
  isPointed body || isFraction cs || isPointedSexagesimal body ||
    [".inf", ".Inf", ".INF"].contains (String.ofList body) ||
    [".nan", ".NaN", ".NAN"].contains (String.ofList cs)

/-- One or two digits in front of the rest. -/
def shortNumber? : List Char → Option (List Char × List Char)
  | c :: d :: rest =>
    if !c.isDigit then none
    else if d.isDigit then some ([c, d], rest)
    else some ([c], d :: rest)
  | [c] => if c.isDigit then some ([c], []) else none
  | [] => none

/-- Exactly `n` digits in front of the rest. -/
def digits? (n : Nat) (cs : List Char) : Option (List Char × List Char) :=
  let ds := cs.take n
  if ds.length = n && ds.all Char.isDigit then some (ds, cs.drop n) else none

/-- The rest of a text behind a character. -/
def behind? (x : Char) : List Char → Option (List Char)
  | [] => none
  | c :: rest => if c == x then some rest else none

/-- A time of the day as it is written. -/
structure ClockText where
  hour : List Char
  minute : List Char
  second : List Char
  /-- The digits behind the point. -/
  fraction : List Char

/-- A distance from universal time as it is written: none, universal time itself, or a sign with
    hours and minutes. -/
inductive ZoneText where
  | absent
  | universal
  | offset (negative : Bool) (hour minute : List Char)

/-- A day or a point in time as it is written. -/
structure TimeText where
  year : List Char
  month : List Char
  day : List Char
  clock : Option (ClockText × ZoneText)

/-- Reads a distance from universal time. -/
def zoneText? (cs : List Char) : Option ZoneText :=
  match cs.dropWhile fun c => c == ' ' || c == '\t' with
  | [] => if cs.isEmpty then some .absent else none
  | ['Z'] => some .universal
  | sign :: rest =>
    if sign == '+' || sign == '-' then do
      let (hour, rest) ← shortNumber? rest
      match rest with
      | [] => return .offset (sign == '-') hour []
      | rest =>
        let (minute, rest) ← digits? 2 (← behind? ':' rest)
        if rest.isEmpty then return .offset (sign == '-') hour minute else none
    else none

/-- Reads a time of the day and the distance from universal time. -/
def clockText? (cs : List Char) : Option (ClockText × ZoneText) := do
  let (hour, rest) ← shortNumber? cs
  let (minute, rest) ← digits? 2 (← behind? ':' rest)
  let (second, rest) ← digits? 2 (← behind? ':' rest)
  let (fraction, rest) := match rest with
    | '.' :: rest => (rest.takeWhile Char.isDigit, rest.dropWhile Char.isDigit)
    | rest => ([], rest)
  return (⟨hour, minute, second, fraction⟩, ← zoneText? rest)

/-- Reads a day, or a point in time. -/
def timeText? (cs : List Char) : Option TimeText := do
  let (year, rest) ← digits? 4 cs
  let (month, rest) ← shortNumber? (← behind? '-' rest)
  let (day, rest) ← shortNumber? (← behind? '-' rest)
  match rest with
  | [] => return ⟨year, month, day, none⟩
  | c :: after =>
    let clock ← if c == 'T' || c == 't' then some after
      else if c == ' ' || c == '\t' then some (rest.dropWhile fun c => c == ' ' || c == '\t')
      else none
    return ⟨year, month, day, some (← clockText? clock)⟩

/-- The texts of days and points in time. A day alone has two digits for the month and two for the
    day. -/
def isTime (cs : List Char) : Bool :=
  match timeText? cs with
  | none => false
  | some t => t.clock.isSome || (t.month.length == 2 && t.day.length == 2)

/-- The type whose grammar a text follows. -/
def ofGrammar (s : String) : Tag :=
  let cs := s.toList
  if isFlag s then bool
  else if isNumber cs then float
  else if isWhole cs then int
  else if s == "<<" then merge
  else if isNull s then null
  else if isTime cs then timestamp
  else if s == "=" then value
  else if ["!", "&", "*"].contains s then unknown
  else text

/-- A text without one line feed at its end. -/
def withoutLineEnd (cs : List Char) : List Char :=
  if cs.getLast? == some '\n' then cs.dropLast else cs

/-- The type of a plain scalar. A line feed at the end does not count, except where there is nothing
    else. -/
def ofPlain (s : String) : Tag :=
  if s == "\n" then text else ofGrammar (String.ofList (withoutLineEnd s.toList))

end Tag

end EntityGraph.Yaml
