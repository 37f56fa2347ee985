/-!
Bytes in base 64: four characters stand for three bytes. Other characters may stand anywhere and
mean nothing; equals signs fill up the last group.
-/
namespace EntityGraph.Text

/-- The six bits that a character stands for. -/
def sextet? (c : Char) : Option Nat :=
  if 'A' ≤ c && c ≤ 'Z' then some (c.toNat - 0x41)
  else if 'a' ≤ c && c ≤ 'z' then some (c.toNat - 0x61 + 26)
  else if '0' ≤ c && c ≤ '9' then some (c.toNat - 0x30 + 52)
  else if c == '+' then some 62
  else if c == '/' then some 63
  else none

/-- Bytes from a place in a group on: `place` characters of it have been read, `pads` equals signs
    since the last one, and the low bits in `left` are not used yet. -/
def base64From : (place pads left : Nat) → List Char → Option (List UInt8)
  | place, _, _, [] => if place = 0 then some [] else none
  | place, pads, left, c :: rest =>
    if c == '=' then
      if 2 ≤ place then
        if 4 ≤ place + pads + 1 then some [] else base64From place (pads + 1) left rest
      else base64From place pads left rest
    else match sextet? c with
      | none => base64From place pads left rest
      | some n => match place with
        | 0 => base64From 1 0 n rest
        | 1 => (base64From 2 0 (n % 16) rest).map ((left * 4 + n / 16).toUInt8 :: ·)
        | 2 => (base64From 3 0 (n % 4) rest).map ((left * 16 + n / 4).toUInt8 :: ·)
        | _ => (base64From 0 0 0 rest).map ((left * 64 + n).toUInt8 :: ·)

/-- The bytes of a text in base 64. -/
def base64? (cs : List Char) : Option (List UInt8) :=
  base64From 0 0 0 cs

end EntityGraph.Text
