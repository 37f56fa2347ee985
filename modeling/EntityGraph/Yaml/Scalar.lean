import EntityGraph.Text.Utf
import EntityGraph.Yaml.Cursor
import EntityGraph.Yaml.Fault

/-!
Scalars as they are written: in quotation marks, as a block of lines, or plain. Reading a scalar
gives its characters, with lines folded as its style says.
-/
namespace EntityGraph.Yaml

/-! ## In quotation marks -/

/-- The character that a letter behind a backslash stands for. -/
def escaped? (c : Char) : Option Char :=
  [('0', '\x00'), ('a', '\x07'), ('b', '\x08'), ('t', '\t'), ('\t', '\t'), ('n', '\n'),
   ('v', '\x0b'), ('f', '\x0c'), ('r', '\r'), ('e', '\x1b'), (' ', ' '), ('"', '"'),
   ('\\', '\\'), ('/', '/'), ('N', '\x85'), ('_', '\xa0'), ('L', '\u2028'),
   ('P', '\u2029')].lookup c

/-- The number of digits that follow a letter behind a backslash. -/
def escapeWidth? (c : Char) : Option Nat :=
  [('x', 2), ('u', 4), ('U', 8)].lookup c

/-- The value of a hexadecimal digit. -/
def hexDigit? (c : Char) : Option Nat :=
  if c.isDigit then some (c.toNat - 0x30)
  else if 'a' ≤ c && c ≤ 'f' then some (c.toNat - 0x61 + 10)
  else if 'A' ≤ c && c ≤ 'F' then some (c.toNat - 0x41 + 10)
  else none

/-- The number that the first `width` characters write in hexadecimal digits. -/
def hexNumber? (width : Nat) (cs : List Char) : Option Nat :=
  let ds := cs.take width
  if ds.length = width then (ds.mapM hexDigit?).map (Decimal.natOfDigits 16) else none

/-- The line breaks that follow, blank lines between them included. A document may not begin or end
    among them. -/
def foldedBreaks : (fuel : Nat) → Cursor → Except Fault (List Char × Cursor)
  | 0, _ => .error .malformed
  | fuel + 1, c =>
    if c.atDocumentMark then .error .malformed
    else
      let c := c.skipWhile isSpace
      match c.lineBreak? with
      | none => .ok ([], c)
      | some (x, c) => (foldedBreaks fuel c).map fun (xs, c) => (x :: xs, c)

/-- The blanks between two words of a quoted scalar; at the end of a line they are folded. -/
def quotedSpaces (fuel : Nat) (c : Cursor) : Except Fault (List Char × Cursor) :=
  let (blanks, c) := c.span isSpace
  match c.peek with
  | none => .error .malformed
  | some _ =>
    match c.lineBreak? with
    | none => .ok (blanks, c)
    | some (x, c) => do
      let (breaks, c) ← foldedBreaks fuel c
      if x != '\n' then return (x :: breaks, c)
      else if breaks.isEmpty then return ([' '], c)
      else return (breaks, c)

/-- What stands behind a backslash. -/
def escapeSequence (fuel : Nat) (c : Cursor) : Except Fault (List Char × Cursor) :=
  match c.peek with
  | none => .error .malformed
  | some x =>
    match escaped? x with
    | some y => .ok ([y], c.next)
    | none =>
      match escapeWidth? x with
      | some width =>
        match hexNumber? width c.next.rest with
        | none => .error .malformed
        | some n =>
          if 0x80000000 ≤ n then .error .tooLarge
          else if 0x110000 ≤ n then .error .noCharacter
          else .ok ([Text.codePoint n], c.next.skip width)
      | none =>
        match c.lineBreak? with
        | none => .error .malformed
        | some (_, c) => foldedBreaks fuel c

/-- The rest of a scalar in double quotation marks. -/
def doubleQuoted : (fuel : Nat) → Cursor → Except Fault (List Char × Cursor)
  | 0, _ => .error .malformed
  | fuel + 1, c =>
    match c.peek with
    | none => .error .malformed
    | some '"' => .ok ([], c.next)
    | some '\\' => do
      let (xs, c) ← escapeSequence fuel c.next
      let (ys, c) ← doubleQuoted fuel c
      return (xs ++ ys, c)
    | some x =>
      if isSpace x || isBreak x then do
        let (xs, c) ← quotedSpaces fuel c
        let (ys, c) ← doubleQuoted fuel c
        return (xs ++ ys, c)
      else (doubleQuoted fuel c.next).map fun (ys, c) => (x :: ys, c)

/-- The rest of a scalar in single quotation marks. -/
def singleQuoted : (fuel : Nat) → Cursor → Except Fault (List Char × Cursor)
  | 0, _ => .error .malformed
  | fuel + 1, c =>
    match c.rest with
    | [] => .error .malformed
    | '\'' :: '\'' :: _ => (singleQuoted fuel (c.skip 2)).map fun (ys, c) => ('\'' :: ys, c)
    | '\'' :: _ => .ok ([], c.next)
    | x :: _ =>
      if isSpace x || isBreak x then do
        let (xs, c) ← quotedSpaces fuel c
        let (ys, c) ← singleQuoted fuel c
        return (xs ++ ys, c)
      else (singleQuoted fuel c.next).map fun (ys, c) => (x :: ys, c)

/-! ## Blocks -/

/-- What the header of a block says: whether the line breaks at its end are kept, and how far its
    lines are indented. -/
structure BlockHeader where
  keep : Option Bool
  increment : Option Nat

/-- Reads a sign that says whether line breaks are kept. -/
def chomping? (c : Cursor) : Option Bool × Cursor :=
  match c.peek with
  | some '+' => (some true, c.next)
  | some '-' => (some false, c.next)
  | _ => (none, c)

/-- Reads a digit that says how far lines are indented. -/
def increment? (c : Cursor) : Option Nat × Cursor :=
  match c.peek with
  | some d => if d.isDigit then (some (d.toNat - 0x30), c.next) else (none, c)
  | none => (none, c)

/-- Reads the header of a block: the sign and the digit in either order, and a comment. -/
def blockHeader (c : Cursor) : Except Fault (BlockHeader × Cursor) :=
  let (keep, c) := chomping? c
  let (increment, c) := increment? c
  let (keep, c) := if keep.isNone && increment.isSome then chomping? c else (keep, c)
  if increment == some 0 || !endsName c.peek then .error .malformed
  else
    let c := c.skipSpaces.skipComment
    if endsLine c.peek then .ok (⟨keep, increment⟩, c.skipLineBreak) else .error .malformed

/-- The blank lines in front of a block, and the greatest number of spaces on one of them or in
    front of the first other line. -/
def leadingBreaks : (fuel : Nat) → (most : Nat) → Cursor → List Char × Nat × Cursor
  | 0, most, c => ([], most, c)
  | fuel + 1, most, c =>
    let c := c.skipSpaces
    let most := max most c.column
    match c.lineBreak? with
    | none => ([], most, c)
    | some (x, c) =>
      let (xs, most, c) := leadingBreaks fuel most c
      (x :: xs, most, c)

/-- Moves over spaces up to a column. -/
def skipIndent (indent : Nat) (c : Cursor) : Cursor :=
  c.skip ((c.rest.takeWhile (· == ' ')).length.min (indent - c.column))

/-- The blank lines in front of a line with an indentation. -/
def blockBreaks (indent : Nat) : (fuel : Nat) → Cursor → List Char × Cursor
  | 0, c => ([], c)
  | fuel + 1, c =>
    let c := skipIndent indent c
    match c.lineBreak? with
    | none => ([], c)
    | some (x, c) =>
      let (xs, c) := blockBreaks indent fuel c
      (x :: xs, c)

/-- What joins two lines of a block: nothing between lines that are folded into paragraphs but a
    space, and otherwise the line break. -/
def lineJoint (folded : Bool) (x : Char) (leading : Bool) (next : Option Char)
    (breaks : List Char) : List Char :=
  if folded && x == '\n' && leading && !next.any isSpace then
    (if breaks.isEmpty then [' '] else [])
  else [x]

/-- The lines of a block, and what is left at its end: the last line break and the blank lines. -/
def blockLines (folded : Bool) (indent : Nat) :
    (fuel : Nat) → (breaks : List Char) → Cursor → List Char × List Char × List Char × Cursor
  | 0, breaks, c => ([], [], breaks, c)
  | fuel + 1, breaks, c =>
    if c.column = indent && c.peek.isSome then
      let leading := !c.peek.any isSpace
      let (line, c) := c.span (!isBreak ·)
      let (last, c) := match c.lineBreak? with
        | some (x, c) => ([x], c)
        | none => ([], c)
      let (after, c) := blockBreaks indent fuel c
      if c.column = indent && c.peek.isSome then
        let joint := match last with
          | x :: _ => lineJoint folded x leading c.peek after
          | [] => []
        let (more, last, rest, c) := blockLines folded indent fuel after c
        (breaks ++ line ++ joint ++ more, last, rest, c)
      else (breaks ++ line, last, after, c)
    else ([], [], breaks, c)

/-- The rest of a block behind its mark. Its lines are indented further than `outer`. -/
def block (folded : Bool) (outer : Int) (fuel : Nat) (c : Cursor) :
    Except Fault (List Char × Cursor) := do
  let (header, c) ← blockHeader c
  let least := (max (outer + 1) 1).toNat
  let (indent, breaks, c) := match header.increment with
    | none =>
      let (breaks, most, c) := leadingBreaks fuel 0 c
      (max least most, breaks, c)
    | some n =>
      let indent := least + n - 1
      let (breaks, c) := blockBreaks indent fuel c
      (indent, breaks, c)
  let (lines, last, rest, c) := blockLines folded indent fuel breaks c
  let tail := match header.keep with
    | none => last
    | some true => last ++ rest
    | some false => []
  return (lines ++ tail, c)

/-! ## Plain -/

/-- The marks of collections in a flow. -/
def isFlowMark (c : Char) : Bool :=
  c == ',' || c == '[' || c == ']' || c == '\x7b' || c == '\x7d'

/-- Whether a character ends a run of plain characters, given the one behind it. -/
def endsPlain (inFlow : Bool) (x : Char) (next : Option Char) : Bool :=
  isSpace x || isBreak x ||
    (x == ':' && (endsWord next || (inFlow && next.any isFlowMark))) ||
    (inFlow && (isFlowMark x || x == '?'))

/-- A run of plain characters. -/
def plainRun (inFlow : Bool) : List Char → List Char
  | [] => []
  | x :: rest => if endsPlain inFlow x rest.head? then [] else x :: plainRun inFlow rest

/-- What follows a run of plain characters: blanks or folded line breaks, and whether a line has
    ended. Nothing if the scalar cannot go on. -/
structure PlainGap where
  chars : List Char
  newLine : Bool
  cursor : Cursor

/-- The blank lines between two lines of a plain scalar; none if a document begins or ends. -/
def plainBreaks : (fuel : Nat) → Cursor → Option (List Char) × Cursor
  | 0, c => (some [], c)
  | fuel + 1, c =>
    let c := c.skipSpaces
    match c.lineBreak? with
    | none => (some [], c)
    | some (x, c) =>
      if c.atDocumentMark then (none, c)
      else
        let (xs, c) := plainBreaks fuel c
        (xs.map (x :: ·), c)

/-- The gap behind a run of plain characters. -/
def plainGap (fuel : Nat) (c : Cursor) : PlainGap :=
  let (blanks, c) := c.span (· == ' ')
  match c.lineBreak? with
  | none => ⟨blanks, false, c⟩
  | some (x, c) =>
    if c.atDocumentMark then ⟨[], true, c⟩
    else match plainBreaks fuel c with
      | (none, c) => ⟨[], true, c⟩
      | (some breaks, c) =>
        if x != '\n' then ⟨x :: breaks, true, c⟩
        else if breaks.isEmpty then ⟨[' '], true, c⟩
        else ⟨breaks, true, c⟩

/-- A plain scalar, with whether it ends at the beginning of a line. -/
structure Plain where
  chars : List Char
  newLine : Bool
  cursor : Cursor

/-- A plain scalar whose further lines are indented by at least `indent`. -/
def plain (inFlow : Bool) (indent : Int) : (fuel : Nat) → Cursor → Plain
  | 0, c => ⟨[], false, c⟩
  | fuel + 1, c =>
    let run := plainRun inFlow c.rest
    let gap := plainGap (fuel + 1) (c.skip run.length)
    let stops := gap.chars.isEmpty || gap.cursor.stands '#' ||
      (!inFlow && gap.cursor.column < indent) || (plainRun inFlow gap.cursor.rest).isEmpty
    if stops then ⟨run, gap.newLine, gap.cursor⟩
    else
      let more := plain inFlow indent fuel gap.cursor
      ⟨run ++ gap.chars ++ more.chars, more.newLine, more.cursor⟩

end EntityGraph.Yaml
