import EntityGraph.Name.Words

/-!
English plurals of names. Only the last word of a name is made plural, and its spelling is kept:
`BlogPost` gives `BlogPosts`, `category` gives `categories`, `Person` gives `People`.
-/
namespace EntityGraph.Name

/-- Where the words of a plural end: digits count as lower-case letters, but one does not continue
    an acronym. -/
def pluralTurn : Turn := fun before a b after =>
  caseTurn before a b after || (a.isUpper && b.isDigit && before.any Char.isUpper)

/-- The words of a name as far as plurals are concerned. -/
def pluralWords (cs : List Char) : List (List Char) :=
  segments pluralTurn cs

/-- Words with a plural of their own. -/
def irregularPlurals : List (String × String) := [
  ("person", "people"), ("child", "children"), ("man", "men"), ("woman", "women"),
  ("mouse", "mice"), ("goose", "geese"), ("tooth", "teeth"), ("foot", "feet"),
  ("datum", "data"), ("index", "indices"), ("matrix", "matrices"), ("vertex", "vertices"),
  ("axis", "axes"), ("crisis", "crises"), ("analysis", "analyses"), ("status", "statuses"),
  ("address", "addresses")]

/-- The plural that a lower-case word has of its own. -/
def irregularPlural? (w : List Char) : Option (List Char) :=
  (irregularPlurals.lookup (String.ofList w)).map String.toList

/-- A vowel letter in lower case. -/
def isVowel (c : Char) : Bool :=
  "aeiou".toList.contains c

/-- How the ending of a word changes: how many letters are dropped, and what is put in their
    place. The letters come in reverse, in lower case. -/
def pluralEnding : (reversed : List Char) → Nat × List Char
  | 's' :: 's' :: _ => (0, ['e', 's'])
  | 's' :: _ => (0, [])
  | 'h' :: 's' :: _ => (0, ['e', 's'])
  | 'h' :: 'c' :: _ => (0, ['e', 's'])
  | 'x' :: _ => (0, ['e', 's'])
  | 'z' :: _ => (0, ['e', 's'])
  | 'y' :: c :: _ => if isVowel c then (0, ['s']) else (1, ['i', 'e', 's'])
  | 'e' :: 'f' :: _ => (2, ['v', 'e', 's'])
  | 'f' :: 'f' :: _ => (0, ['s'])
  | 'f' :: _ => (1, ['v', 'e', 's'])
  | 'o' :: c :: _ => if isVowel c then (0, ['s']) else (0, ['e', 's'])
  | _ => (0, ['s'])

/-- The plural of one word. An irregular plural keeps the case of the first letter only. -/
def pluralWord (w : List Char) : List Char :=
  match irregularPlural? (lower w) with
  | some plural =>
    match w, plural with
    | c :: _, p :: rest => (if c.isUpper then p.toUpper else p) :: rest
    | _, plural => plural
  | none =>
    let (dropped, ending) := pluralEnding (lower w).reverse
    w.take (w.length - dropped) ++ ending

/-- The plural of a name: its last word is made plural; a name that does not end in a word gets
    an `s`. -/
def pluralChars (cs : List Char) : List Char :=
  match cs.getLast? with
  | none => []
  | some c =>
    if isPart c then
      let w := (pluralWords cs).getLastD []
      cs.take (cs.length - w.length) ++ pluralWord w
    else cs ++ ['s']

/-- The plural of a name. -/
def plural (s : String) : String :=
  String.ofList (pluralChars s.toList)

example : plural "BlogPost" = "BlogPosts" := by decide +kernel
example : plural "category" = "categories" := by decide +kernel

end EntityGraph.Name
