/-!
Halves of surrogate pairs. A document may write one half of a pair without the other. Such a half is
no character, so a private character far away from all others stands for it in a text.
-/
namespace EntityGraph.Text

/-- How far the character that stands for a half is from the half. -/
def halfDistance : Nat := 0x100000

/-- The half of a surrogate pair that a character stands for. -/
def half? (c : Char) : Option Nat :=
  let n := c.toNat - halfDistance
  if 0xd800 ≤ n && n < 0xe000 then some n else none

/-- Whether a text has a half of a surrogate pair in it. -/
def hasHalf (s : String) : Bool :=
  s.toList.any fun c => (half? c).isSome

/-- The character of a code point, or the one that stands for half of a surrogate pair. -/
def codePoint (n : Nat) : Char :=
  if h : n.isValidChar then Char.ofNatAux n h else Char.ofNat (n + halfDistance)

example : (List.range 0x800).all fun k => half? (codePoint (0xd800 + k)) == some (0xd800 + k) := by
  decide +kernel

end EntityGraph.Text
