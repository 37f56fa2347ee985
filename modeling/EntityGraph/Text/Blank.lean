/-!
Blank characters: the white space that surrounds a name, separates the values of an enumeration and
ends a type token. `trim` takes it off both ends of a text.
-/
namespace EntityGraph.Text

/-- White space and the separators of every script, the four information separators U+001C to
    U+001F included. -/
def isBlank (c : Char) : Bool :=
  let n := c.toNat
  (9 ≤ n && n ≤ 13) || (28 ≤ n && n ≤ 32) || n == 0x85 || n == 0xa0 || n == 0x1680 ||
    (0x2000 ≤ n && n ≤ 0x200a) || n == 0x2028 || n == 0x2029 || n == 0x202f || n == 0x205f ||
    n == 0x3000

/-- White space by the Unicode property of that name, which leaves out the information separators. -/
def isWhiteSpace (c : Char) : Bool :=
  isBlank c && !(28 ≤ c.toNat && c.toNat ≤ 31)

/-- A text without the characters of a class at either end. -/
def stripChars (drop : Char → Bool) (cs : List Char) : List Char :=
  ((cs.dropWhile drop).reverse.dropWhile drop).reverse

/-- A text without the characters of a class at its end. -/
def stripEnd (drop : Char → Bool) (cs : List Char) : List Char :=
  (cs.reverse.dropWhile drop).reverse

/-- A text without the blanks around it. -/
def trimChars (cs : List Char) : List Char :=
  stripChars isBlank cs

/-- A text without the blanks around it. -/
def trim (s : String) : String :=
  String.ofList (trimChars s.toList)

theorem stripEnd_nil (drop : Char → Bool) : stripEnd drop [] = [] := rfl

end EntityGraph.Text
