/-!
Dates of the Gregorian calendar and times of day, with or without an offset from universal time.
-/
namespace EntityGraph

/-- A day of the calendar. -/
structure Date where
  year : Nat
  month : Nat
  day : Nat
  deriving DecidableEq, Repr

/-- A time on a day; `offset` is the distance from universal time in minutes, if one is known. -/
structure Moment where
  date : Date
  hour : Nat
  minute : Nat
  second : Nat
  micro : Nat
  offset : Option Int
  deriving DecidableEq, Repr

/-- What is wrong with the parts of a date or a time. -/
inductive CalendarFault where
  | year (n : Nat) | month | day | hour | minute | second | offset (minutes : Int)
  deriving DecidableEq, Repr

/-- A number filled with zeros to a width. -/
def padded (width n : Nat) : String :=
  let ds := Nat.toDigits 10 n
  String.ofList (List.replicate (width - ds.length) '0' ++ ds)

/-- A length of time as days and seconds, the seconds between zero and a day. -/
def daysAndSeconds (minutes : Int) : Int × Int :=
  (minutes * 60 / 86400, minutes * 60 % 86400)

/-- The display of a length of time. -/
def displayDuration (minutes : Int) : String :=
  let parts := match daysAndSeconds minutes with
    | (0, 0) => ["0"]
    | (0, s) => ["seconds=" ++ toString s]
    | (d, 0) => ["days=" ++ toString d]
    | (d, s) => ["days=" ++ toString d, "seconds=" ++ toString s]
  "datetime.timedelta(" ++ ", ".intercalate parts ++ ")"

/-- The wording of a calendar fault. -/
def CalendarFault.message : CalendarFault → String
  | .year n => "year " ++ toString n ++ " is out of range"
  | .month => "month must be in 1..12"
  | .day => "day is out of range for month"
  | .hour => "hour must be in 0..23"
  | .minute => "minute must be in 0..59"
  | .second => "second must be in 0..59"
  | .offset minutes =>
    "offset must be a timedelta strictly between -timedelta(hours=24) and timedelta(hours=24), not "
      ++ displayDuration minutes ++ "."

/-- Whether February has 29 days. -/
def isLeapYear (year : Nat) : Bool :=
  year % 4 == 0 && (year % 100 != 0 || year % 400 == 0)

/-- The number of days of a month. -/
def daysInMonth (year month : Nat) : Nat :=
  if month = 2 then if isLeapYear year then 29 else 28
  else if month = 4 || month = 6 || month = 9 || month = 11 then 30
  else 31

/-- The day with the given parts. -/
def Date.make (year month day : Nat) : Except CalendarFault Date :=
  if year < 1 || 9999 < year then .error (.year year)
  else if month < 1 || 12 < month then .error .month
  else if day < 1 || daysInMonth year month < day then .error .day
  else .ok ⟨year, month, day⟩

/-- The time with the given parts. An offset is shorter than a day. -/
def Moment.make (year month day hour minute second micro : Nat) (offset : Option Int) :
    Except CalendarFault Moment := do
  if let some m := offset then
    if m ≤ -1440 || 1440 ≤ m then throw (.offset m)
  let date ← Date.make year month day
  if 23 < hour then throw .hour
  if 59 < minute then throw .minute
  if 59 < second then throw .second
  return ⟨date, hour, minute, second, micro, offset⟩

/-- A day in the form `2020-01-31`. -/
def Date.iso (d : Date) : String :=
  padded 4 d.year ++ "-" ++ padded 2 d.month ++ "-" ++ padded 2 d.day

/-- An offset in the form `+02:00`. -/
def isoOffset (minutes : Int) : String :=
  (if minutes < 0 then "-" else "+") ++ padded 2 (minutes.natAbs / 60) ++ ":" ++
    padded 2 (minutes.natAbs % 60)

/-- A time with a separator between day and hour; `universal` is written for the offset zero. -/
def Moment.isoWith (separator universal : String) (t : Moment) : String :=
  t.date.iso ++ separator ++ padded 2 t.hour ++ ":" ++ padded 2 t.minute ++ ":" ++
    padded 2 t.second ++ (if t.micro = 0 then "" else "." ++ padded 6 t.micro) ++
    match t.offset with
    | none => ""
    | some 0 => universal
    | some m => isoOffset m

/-- A time in the form `2020-01-31T10:20:30Z`. -/
def Moment.iso (t : Moment) : String :=
  t.isoWith "T" "Z"

/-- The display of a day. -/
def Date.display (d : Date) : String :=
  "datetime.date(" ++ toString d.year ++ ", " ++ toString d.month ++ ", " ++ toString d.day ++ ")"

/-- The display of a time; seconds that are zero are left out. -/
def Moment.display (t : Moment) : String :=
  let parts := [t.date.year, t.date.month, t.date.day, t.hour, t.minute] ++
    (if t.micro ≠ 0 then [t.second, t.micro] else if t.second ≠ 0 then [t.second] else [])
  let zone := match t.offset with
    | none => []
    | some 0 => ["tzinfo=datetime.timezone.utc"]
    | some m => ["tzinfo=datetime.timezone(" ++ displayDuration m ++ ")"]
  "datetime.datetime(" ++ ", ".intercalate (parts.map toString ++ zone) ++ ")"

/-- The number of days from the first day of the calendar to a day. -/
def Date.ordinal (d : Date) : Nat :=
  let y := d.year - 1
  let before := (List.range (d.month - 1)).foldl (fun n m => n + daysInMonth d.year (m + 1)) 0
  y * 365 + y / 4 - y / 100 + y / 400 + before + d.day

/-- The distance of a time from the beginning of the calendar in microseconds, by its clock. -/
def Moment.clock (t : Moment) : Int :=
  (((t.date.ordinal * 24 + t.hour) * 60 + t.minute) * 60 + t.second) * 1000000 + t.micro

/-- Whether two times are the same: the same instant if both have an offset, the same clock if
    neither has. -/
def Moment.same (s t : Moment) : Bool :=
  match s.offset, t.offset with
  | none, none => s.clock == t.clock
  | some a, some b => s.clock - a * 60000000 == t.clock - b * 60000000
  | _, _ => false

example : Date.make 1900 2 29 = .error .day := rfl

end EntityGraph
