import EntityGraph.Yaml.Property

/-!
Tokens of YAML texts. Indentation is turned into tokens that open and close collections. A key is
known as such only by the colon behind it, so the place of every node that may be a key is kept
until the line ends, and the token that announces the key is put there afterwards. Whoever goes
through the tokens of a text that breaks off meets the fault where it hides the next token, and not
before.
-/
namespace EntityGraph.Yaml

/-- The tokens. -/
inductive Token where
  | directive (d : Directive)
  | documentStart
  | documentEnd
  | streamEnd
  | blockSequence
  | blockMapping
  | blockEnd
  | flowSequence
  | flowSequenceEnd
  | flowMapping
  | flowMappingEnd
  | key
  | value
  | blockEntry
  | flowEntry
  | alias (name : String)
  | anchor (name : String)
  | tag (t : TagText)
  /-- A scalar, and whether it is plain. -/
  | scalar (text : String) (isPlain : Bool)
  /-- The place behind which no token is known, and the fault that hides them. -/
  | broken (f : Fault)

/-- A node that may be a key: the number of tokens before it, where it stands, and whether it has to
    be one because it begins a line of a block. -/
structure KeyMark where
  flow : Nat
  before : Nat
  required : Bool
  index : Nat
  line : Nat
  column : Nat

/-- The state between two tokens. -/
structure Lexer where
  cursor : Cursor
  /-- The number of open flow collections. -/
  flow : Nat := 0
  /-- The column of the innermost block, and those around it. -/
  indent : Int := -1
  outer : List Int := []
  /-- Whether a key may begin here. -/
  keyAllowed : Bool := true
  /-- Nodes that may be keys, at most one for every depth of flow collections. -/
  marks : List KeyMark := []
  /-- The tokens so far, the last one first, and their number. -/
  tokens : List Token := []
  count : Nat := 0
  /-- Whether the end of the text is reached. -/
  finished : Bool := false

namespace Lexer

/-- Adds a token. -/
def push (l : Lexer) (t : Token) : Lexer :=
  { l with tokens := t :: l.tokens, count := l.count + 1 }

/-- Puts a token in front of the last `n` ones. -/
def insertBefore (l : Lexer) (n : Nat) (t : Token) : Lexer :=
  { l with tokens := l.tokens.take n ++ t :: l.tokens.drop n, count := l.count + 1 }

/-- Moves the cursor. -/
def moveTo (l : Lexer) (c : Cursor) : Lexer :=
  { l with cursor := c }

/-- Moves over a mark and adds its token. -/
def pushMark (l : Lexer) (t : Token) (width : Nat) : Lexer :=
  (l.push t).moveTo (l.cursor.skip width)

/-- Whether a key may or may not begin next. -/
def allowKey (l : Lexer) (allowed : Bool) : Lexer :=
  { l with keyAllowed := allowed }

/-! ## Marks -/

/-- Drops the marks that are too far away to be keys. A key stands on one line and has at most 1024
    characters. -/
def dropStale (l : Lexer) : Except Fault Lexer :=
  let isStale (m : KeyMark) := m.line != l.cursor.line || m.index + 1024 < l.cursor.index
  if l.marks.any fun m => isStale m && m.required then .error .malformed
  else .ok { l with marks := l.marks.filter fun m => !isStale m }

/-- Drops the mark of the innermost collection. -/
def dropMark (l : Lexer) : Except Fault Lexer :=
  if l.marks.any fun m => m.flow == l.flow && m.required then .error .malformed
  else .ok { l with marks := l.marks.filter (·.flow != l.flow) }

/-- Marks the next node as a possible key. -/
def saveMark (l : Lexer) : Except Fault Lexer :=
  if l.keyAllowed then do
    let l ← l.dropMark
    let required := l.flow == 0 && l.indent == l.cursor.column
    return { l with
      marks := ⟨l.flow, l.count, required, l.cursor.index, l.cursor.line, l.cursor.column⟩ ::
        l.marks }
  else .ok l

/-! ## Indentation -/

/-- Closes the blocks that stand further right than a column. -/
def closeBlocks (column : Int) : (outer : List Int) → Lexer → Lexer
  | [], l => l
  | o :: rest, l =>
    if column < l.indent
    then closeBlocks column rest ({ l with indent := o, outer := rest }.push .blockEnd)
    else l

/-- Closes the blocks that stand further right than a column, if no flow collection is open. -/
def unwind (l : Lexer) (column : Int) : Lexer :=
  if l.flow == 0 then closeBlocks column l.outer l else l

/-- Opens a block at a column, unless one is open there. The token goes in front of the last `n`
    ones. -/
def openBlock (l : Lexer) (column : Nat) (t : Token) (n : Nat) : Lexer :=
  if l.indent < column
  then { l with indent := column, outer := l.indent :: l.outer }.insertBefore n t
  else l

/-! ## Blanks -/

/-- Moves over blanks, comments and line ends. Behind a line end a key may begin. -/
def skipBlanks : (fuel : Nat) → Lexer → Lexer
  | 0, l => l
  | fuel + 1, l =>
    let c := l.cursor.skipSpaces.skipComment
    match c.lineBreak? with
    | none => l.moveTo c
    | some (_, c) => skipBlanks fuel ((l.moveTo c).allowKey (l.keyAllowed || l.flow == 0))

/-- Moves to the next token. A byte order mark may stand at the beginning. -/
def toToken (fuel : Nat) (l : Lexer) : Lexer :=
  let c := l.cursor
  let c := if c.index == 0 && c.stands '\ufeff' then c.next else c
  skipBlanks fuel (l.moveTo c)

/-! ## Steps -/

/-- A mark that begins or ends a document. -/
def documentMark (l : Lexer) (t : Token) : Except Fault Lexer := do
  let l ← (l.unwind (-1)).dropMark
  return (l.allowKey false).pushMark t 3

/-- A mark that opens a flow collection. -/
def flowStart (l : Lexer) (t : Token) : Except Fault Lexer := do
  let l ← l.saveMark
  return ({ l with flow := l.flow + 1 }.allowKey true).pushMark t 1

/-- A mark that closes a flow collection. No node has one that closes none. -/
def flowEnd (l : Lexer) (t : Token) : Except Fault Lexer := do
  let l ← l.dropMark
  return ({ l with flow := l.flow - 1 }.allowKey false).pushMark t 1

/-- A comma. -/
def flowEntry (l : Lexer) : Except Fault Lexer := do
  let l ← (l.allowKey true).dropMark
  return l.pushMark .flowEntry 1

/-- The mark of a member of a block. -/
def blockEntry (l : Lexer) : Except Fault Lexer := do
  if l.flow == 0 && !l.keyAllowed then throw .malformed
  let l := if l.flow == 0 then l.openBlock l.cursor.column .blockSequence 0 else l
  let l ← (l.allowKey true).dropMark
  return l.pushMark .blockEntry 1

/-- The mark of a key that is no simple one. -/
def explicitKey (l : Lexer) : Except Fault Lexer := do
  if l.flow == 0 && !l.keyAllowed then throw .malformed
  let l := if l.flow == 0 then l.openBlock l.cursor.column .blockMapping 0 else l
  let l ← (l.allowKey (l.flow == 0)).dropMark
  return l.pushMark .key 1

/-- A colon: the node that is marked becomes a key. -/
def valueMark (l : Lexer) : Except Fault Lexer := do
  match l.marks.find? (·.flow == l.flow) with
  | some m =>
    let l := { l with marks := l.marks.filter (·.flow != l.flow) }
    let behind := l.count - m.before
    let l := l.insertBefore behind .key
    let l := if l.flow == 0 then l.openBlock m.column .blockMapping (behind + 1) else l
    return (l.allowKey false).pushMark .value 1
  | none =>
    if l.flow == 0 && !l.keyAllowed then throw .malformed
    let l := if l.flow == 0 then l.openBlock l.cursor.column .blockMapping 0 else l
    let l ← (l.allowKey (l.flow == 0)).dropMark
    return l.pushMark .value 1

/-- A property or a scalar, which may be a key. -/
def nodePart (l : Lexer) (read : Cursor → Except Fault (Token × Cursor)) :
    Except Fault Lexer := do
  let l ← l.saveMark
  let (t, c) ← read l.cursor
  return ((l.allowKey false).push t).moveTo c

/-- A scalar in quotation marks. -/
def quotedScalar (l : Lexer) (read : Cursor → Except Fault (List Char × Cursor)) :
    Except Fault Lexer :=
  l.nodePart fun c => do
    let (cs, c) ← read c.next
    return (.scalar (String.ofList cs) false, c)

/-- A block of lines. A key may begin behind it. -/
def blockScalar (fuel : Nat) (l : Lexer) (folded : Bool) : Except Fault Lexer := do
  let l ← (l.allowKey true).dropMark
  let (cs, c) ← block folded l.indent fuel l.cursor.next
  return (l.push (.scalar (String.ofList cs) false)).moveTo c

/-- A plain scalar. A key may begin behind it if a line has ended. -/
def plainScalar (fuel : Nat) (l : Lexer) : Except Fault Lexer := do
  let l ← l.saveMark
  let p := plain (0 < l.flow) (l.indent + 1) fuel l.cursor
  return ((l.allowKey p.newLine).push (.scalar (String.ofList p.chars) true)).moveTo p.cursor

/-- Whether a plain scalar may begin with a character, given the one behind it. -/
def beginsPlain (inFlow : Bool) (x : Char) (next : Option Char) : Bool :=
  let indicators := "-?:,[]\x7b\x7d#&*!|>'\"%@`".toList
  (!isSpace x && !isBreak x && !indicators.contains x) ||
    (!endsWord next && (x == '-' || (!inFlow && (x == '?' || x == ':'))))

/-- The end of the text. -/
def finish (l : Lexer) : Except Fault Lexer := do
  let l ← (l.unwind (-1)).dropMark
  return { l with marks := [], finished := true }.push .streamEnd

/-- Reads the token that begins with a character, with `fuel` more than the characters left. -/
def readToken (fuel : Nat) (l : Lexer) (x : Char) : Except Fault Lexer :=
  let c := l.cursor
  let inFlow := decide (0 < l.flow)
  let next := c.peekAt 1
  if x == '%' && c.column == 0 then do
    let l ← (l.unwind (-1)).dropMark
    let (d, c) ← directive l.cursor.next
    return ((l.allowKey false).push (.directive d)).moveTo c
  else if c.column == 0 && c.atMark '-' then l.documentMark .documentStart
  else if c.column == 0 && c.atMark '.' then l.documentMark .documentEnd
  else if x == '[' then l.flowStart .flowSequence
  else if x == '\x7b' then l.flowStart .flowMapping
  else if x == ']' then l.flowEnd .flowSequenceEnd
  else if x == '\x7d' then l.flowEnd .flowMappingEnd
  else if x == ',' then l.flowEntry
  else if x == '-' && endsWord next then l.blockEntry
  else if x == '?' && (inFlow || endsWord next) then l.explicitKey
  else if x == ':' && (inFlow || endsWord next) then l.valueMark
  else if x == '*' then l.nodePart fun c => do
    let (name, c) ← anchorName c.next
    return (.alias name, c)
  else if x == '&' then l.nodePart fun c => do
    let (name, c) ← anchorName c.next
    return (.anchor name, c)
  else if x == '!' then l.nodePart fun c => do
    let (t, c) ← tagText c
    return (.tag t, c)
  else if x == '|' && !inFlow then blockScalar fuel l false
  else if x == '>' && !inFlow then blockScalar fuel l true
  else if x == '\'' then l.quotedScalar (singleQuoted fuel)
  else if x == '"' then l.quotedScalar (doubleQuoted fuel)
  else if beginsPlain inFlow x next then plainScalar fuel l
  else .error .malformed

/-- Reads on: the token that is next, and those that its column brings about. -/
def step (fuel : Nat) (l : Lexer) : Except Fault Lexer := do
  let l ← (toToken fuel l).dropStale
  let l := l.unwind l.cursor.column
  match l.cursor.peek with
  | none => l.finish
  | some x => (← readToken fuel l x).dropStale

/-- The number of tokens that stay as they are: in front of a node that may be a key, others may
    still be put. -/
def settled (l : Lexer) : Nat :=
  l.marks.foldl (fun n m => min n m.before) l.count

/-- The tokens of a text that breaks off: those that stay as they are, and the fault. -/
def breakOff (l : Lexer) (f : Fault) : List Token :=
  l.tokens.reverse.take l.settled ++ [.broken f]

/-- Reads all tokens, up to a fault if there is one. -/
def run : (fuel : Nat) → Lexer → List Token
  | 0, l => l.breakOff .malformed
  | fuel + 1, l =>
    match step (fuel + 1) l with
    | .error f => l.breakOff f
    | .ok l => if l.finished then l.tokens.reverse else run fuel l

end Lexer

/-- The tokens of a text. The last one tells whether the text ends or breaks off there. A text with
    a character that none may have breaks off at once. -/
def tokens (cs : List Char) : List Token :=
  if cs.all isAllowed then Lexer.run (cs.length + 2) { cursor := { rest := cs } }
  else [.broken .malformed]

end EntityGraph.Yaml
