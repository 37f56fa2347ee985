import EntityGraph.Text.Surrogate

/-!
Cursors: places in a YAML text. A cursor knows the text behind it and where it stands, because
indentation decides what belongs together.
-/
namespace EntityGraph.Yaml

/-- The characters that end a line. -/
def isBreak (c : Char) : Bool :=
  c == '\n' || c == '\r' || c == '\x85' || c == '\u2028' || c == '\u2029'

/-- A blank within a line. -/
def isSpace (c : Char) : Bool :=
  c == ' ' || c == '\t'

/-- The characters that a text may hold. -/
def isAllowed (c : Char) : Bool :=
  let n := c.toNat
  n == 0x9 || n == 0xa || n == 0xd || (0x20 ≤ n && n ≤ 0x7e) || n == 0x85 ||
    (0xa0 ≤ n && n ≤ 0xfffd) || (0x10000 ≤ n && (Text.half? c).isNone)

/-- Whether there is nothing but the end of the line. -/
def endsLine (c : Option Char) : Bool :=
  c.all isBreak

/-- Whether a word ends: at a blank or at the end of the line. -/
def endsWord (c : Option Char) : Bool :=
  c.all fun c => isSpace c || isBreak c

/-- Whether there is a space or the end of the line. -/
def endsName (c : Option Char) : Bool :=
  c.all fun c => c == ' ' || isBreak c

/-- A place in a text. -/
structure Cursor where
  rest : List Char
  index : Nat := 0
  line : Nat := 0
  column : Nat := 0

namespace Cursor

/-- The next character. -/
def peek (c : Cursor) : Option Char :=
  c.rest.head?

/-- The character `n` places further on. -/
def peekAt (c : Cursor) (n : Nat) : Option Char :=
  c.rest[n]?

/-- Whether the next character is the given one. -/
def stands (c : Cursor) (x : Char) : Bool :=
  c.peek == some x

/-- Moves over a character. A carriage return in front of a line feed does not end the line. -/
def next (c : Cursor) : Cursor :=
  match c.rest with
  | [] => c
  | x :: rest =>
    if isBreak x && !(x == '\r' && rest.head? == some '\n') then
      ⟨rest, c.index + 1, c.line + 1, 0⟩
    else if x.toNat == 0xfeff then ⟨rest, c.index + 1, c.line, c.column⟩
    else ⟨rest, c.index + 1, c.line, c.column + 1⟩

/-- Moves over `n` characters. -/
def skip (c : Cursor) : Nat → Cursor
  | 0 => c
  | n + 1 => c.next.skip n

/-- The characters up to the first one without a property, and the place behind them. -/
def span (c : Cursor) (p : Char → Bool) : List Char × Cursor :=
  let cs := c.rest.takeWhile p
  (cs, c.skip cs.length)

/-- Moves over all characters with a property. -/
def skipWhile (c : Cursor) (p : Char → Bool) : Cursor :=
  (c.span p).2

/-- Moves over spaces. -/
def skipSpaces (c : Cursor) : Cursor :=
  c.skipWhile (· == ' ')

/-- Moves over a comment. -/
def skipComment (c : Cursor) : Cursor :=
  if c.stands '#' then c.skipWhile (!isBreak ·) else c

/-- Moves over the end of a line. All ends but the Unicode separators count as line feeds. -/
def lineBreak? (c : Cursor) : Option (Char × Cursor) :=
  match c.rest with
  | '\r' :: '\n' :: _ => some ('\n', c.skip 2)
  | x :: _ =>
    if x == '\u2028' || x == '\u2029' then some (x, c.next)
    else if isBreak x then some ('\n', c.next)
    else none
  | [] => none

/-- Moves over the end of a line if there is one. -/
def skipLineBreak (c : Cursor) : Cursor :=
  match c.lineBreak? with
  | some (_, c) => c
  | none => c

/-- Whether a mark of three characters stands here as a word. -/
def atMark (c : Cursor) (x : Char) : Bool :=
  c.rest.take 3 == [x, x, x] && endsWord (c.peekAt 3)

/-- Whether a mark that ends or begins a document stands here. -/
def atDocumentMark (c : Cursor) : Bool :=
  c.atMark '-' || c.atMark '.'

end Cursor

end EntityGraph.Yaml
