/-!
The words of a name. Any spelling, `UserProfile`, `user_profile` or `getHTTPResponse`, is cut where
a separator stands or the case turns, and the words are put together again in another spelling.
Only ASCII letters and digits belong to words.

`segments` is the one cutting routine; `caseTurn` says where the case turns, and `wordTurn` adds the
turns between digits and letters.
-/
namespace EntityGraph.Name

/-- An ASCII letter or digit. -/
def isPart (c : Char) : Bool :=
  c.isAlphanum

/-- Where a segment of a name may end: between `a` and `b`, when `before` is the character in front
    of `a` in the segment and `after` the one behind `b`. -/
abbrev Turn := (before : Option Char) → (a b : Char) → (after : Option Char) → Bool

/-- The case turns at an upper-case letter behind a lower-case letter or a digit, and at the last
    letter of an acronym that a lower-case letter follows. -/
def caseTurn : Turn := fun _ a b after =>
  b.isUpper && ((a.isLower || a.isDigit) || (a.isUpper && after.any Char.isLower))

/-- Words end where the case turns and between digits and letters. -/
def wordTurn : Turn := fun before a b after =>
  caseTurn before a b after || (a.isDigit != b.isDigit)

/-- The segments of a name. `open_` holds the segment that is being read, its last character
    first. -/
def segmentsFrom (turn : Turn) : (open_ : List Char) → List Char → List (List Char)
  | [], [] => []
  | a :: done, [] => [(a :: done).reverse]
  | [], c :: rest =>
    if isPart c then segmentsFrom turn [c] rest else segmentsFrom turn [] rest
  | a :: done, c :: rest =>
    if !isPart c then (a :: done).reverse :: segmentsFrom turn [] rest
    else if turn done.head? a c rest.head? then
      (a :: done).reverse :: segmentsFrom turn [c] rest
    else segmentsFrom turn (c :: a :: done) rest

/-- The segments of a name: its runs of letters and digits, cut at the turns. -/
def segments (turn : Turn) (cs : List Char) : List (List Char) :=
  segmentsFrom turn [] cs

/-- A word in lower case. -/
def lower (w : List Char) : List Char :=
  w.map Char.toLower

/-- A word with its first letter in upper case and the others in lower case. -/
def capitalize : List Char → List Char
  | [] => []
  | c :: rest => c.toUpper :: lower rest

/-- The words of a name, in lower case. -/
def words (cs : List Char) : List (List Char) :=
  (segments wordTurn cs).map lower

/-- Words with a separator between them. -/
def join (separator : List Char) : List (List Char) → List Char
  | [] => []
  | [w] => w
  | w :: rest => w ++ separator ++ join separator rest

/-! ## Spellings -/

/-- The spelling `user_profile`. Digits stay with the letters in front of them. -/
def snakeChars (cs : List Char) : List Char :=
  join ['_'] ((segments caseTurn cs).map lower)

/-- The spelling `user_profile`. -/
def snake (s : String) : String :=
  String.ofList (snakeChars s.toList)

/-- The spelling `UserProfile`. -/
def pascalChars (cs : List Char) : List Char :=
  ((words cs).map capitalize).flatten

/-- The spelling `UserProfile`. -/
def pascal (s : String) : String :=
  String.ofList (pascalChars s.toList)

/-- The spelling `userProfile`. -/
def camelChars (cs : List Char) : List Char :=
  match words cs with
  | [] => []
  | w :: rest => w ++ (rest.map capitalize).flatten

/-- The spelling `userProfile`. -/
def camel (s : String) : String :=
  String.ofList (camelChars s.toList)

/-- The spelling `user-profile`. -/
def kebabChars (cs : List Char) : List Char :=
  join ['-'] (words cs)

/-- The spelling `user-profile`. -/
def kebab (s : String) : String :=
  String.ofList (kebabChars s.toList)

/-- The spelling `User Profile`. -/
def titleChars (cs : List Char) : List Char :=
  join [' '] ((words cs).map capitalize)

/-- The spelling `User Profile`. -/
def title (s : String) : String :=
  String.ofList (titleChars s.toList)

example : snake "getHTTPResponse" = "get_http_response" := by decide +kernel
example : title "orderItem2" = "Order Item 2" := by decide +kernel

end EntityGraph.Name
