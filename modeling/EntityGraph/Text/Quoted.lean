import EntityGraph.Text.Printable
import EntityGraph.Text.Surrogate

/-!
Quoted displays: a text or a byte sequence between quotation marks, with everything that cannot be
seen written as an escape. The marks are single ones, unless the content has single marks and no
double ones.
-/
namespace EntityGraph.Text

/-- A number in lower-case hexadecimal, filled with zeros to a width. -/
def hexDigits (width n : Nat) : List Char :=
  let digits := Nat.toDigits 16 n
  List.replicate (width - digits.length) '0' ++ digits

/-- The mark that a quoted display uses. -/
def quoteMark (hasSingle hasDouble : Bool) : Char :=
  if hasSingle && !hasDouble then '"' else '\''

/-- How a character stands between two marks. -/
def quotedChar (mark c : Char) : List Char :=
  if c == mark || c == '\\' then ['\\', c]
  else if c == '\t' then ['\\', 't']
  else if c == '\n' then ['\\', 'n']
  else if c == '\r' then ['\\', 'r']
  else if isPrintable c then [c]
  else if c.toNat ≤ 0xff then '\\' :: 'x' :: hexDigits 2 c.toNat
  else match half? c with
    | some n => '\\' :: 'u' :: hexDigits 4 n
    | none =>
      if c.toNat ≤ 0xffff then '\\' :: 'u' :: hexDigits 4 c.toNat
      else '\\' :: 'U' :: hexDigits 8 c.toNat

/-- The quoted display of a text. -/
def quoted (s : String) : String :=
  let cs := s.toList
  let mark := quoteMark (cs.contains '\'') (cs.contains '"')
  String.ofList (mark :: cs.flatMap (quotedChar mark) ++ [mark])

/-- How a byte stands between two marks. -/
def quotedByte (mark : Char) (b : UInt8) : List Char :=
  let c := Char.ofNat b.toNat
  if c == mark || c == '\\' then ['\\', c]
  else if c == '\t' then ['\\', 't']
  else if c == '\n' then ['\\', 'n']
  else if c == '\r' then ['\\', 'r']
  else if 0x20 ≤ b.toNat && b.toNat < 0x7f then [c]
  else '\\' :: 'x' :: hexDigits 2 b.toNat

/-- The quoted display of a byte sequence, marked by a `b` in front. -/
def quotedBytes (bs : List UInt8) : String :=
  let mark := quoteMark (bs.contains 0x27) (bs.contains 0x22)
  String.ofList ('b' :: mark :: bs.flatMap (quotedByte mark) ++ [mark])

/-- A list of quoted displays between brackets. -/
def quotedList (xs : List String) : String :=
  "[" ++ ", ".intercalate (xs.map quoted) ++ "]"

example : quoted "it's" = "\"it's\"" := by decide +kernel
example : quoted "a\nb\\" = "'a\\nb\\\\'" := by decide +kernel

end EntityGraph.Text
