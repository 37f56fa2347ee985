import EntityGraph.Yaml.Tag
import EntityGraph.Yaml.Token

/-!
Nodes of YAML documents: scalars and collections with their types, numbered as they are read, and
aliases, which stand for nodes with anchors. A collection may hold an alias of itself.
-/
namespace EntityGraph.Yaml

/-- A node. An alias is a reference to a node with an anchor. -/
inductive Node where
  | scalar (number : Nat) (tag : Tag) (text : String)
  | sequence (number : Nat) (tag : Tag) (items : List Node)
  | mapping (number : Nat) (tag : Tag) (entries : List (Node × Node))
  | reference (name : String)

/-- The node that stands where nothing is written. -/
def Node.empty : Node := .scalar 0 .null ""

/-- The type of a node that is no alias. -/
def Node.tag : Node → Tag
  | scalar _ t _ | sequence _ t _ | mapping _ t _ => t
  | reference _ => .unknown

/-- The number of a node that is no alias. -/
def Node.number : Node → Nat
  | scalar n _ _ | sequence n _ _ | mapping n _ _ => n
  | reference _ => 0

/-- A document: its node, the nodes that aliases stand for, and the number of nodes. -/
structure Document where
  root : Node
  anchors : List (String × Node)
  count : Nat

/-- The node that is meant: an alias means the node of its anchor. -/
def Document.target (d : Document) : Node → Node
  | .reference name => (d.anchors.lookup name).getD .empty
  | n => n

/-- What a reader of nodes knows: the tokens ahead, the names of tags, the names of anchors, the
    nodes with anchors that are read, and the number of nodes so far. -/
structure NodeReader where
  tokens : List Token
  handles : List (String × String)
  names : List String := []
  anchors : List (String × Node) := []
  count : Nat := 0

namespace NodeReader

/-- Takes a token. -/
def drop (s : NodeReader) : NodeReader :=
  { s with tokens := s.tokens.tail }

/-- The next token. There is none where the text breaks off. -/
def head (s : NodeReader) : Except Fault Token :=
  match s.tokens with
  | .broken f :: _ => .error f
  | t :: _ => .ok t
  | [] => .error .malformed

/-- Whether one of some tokens is next. -/
def next (s : NodeReader) (p : Token → Bool) : Except Fault Bool :=
  s.head.map p

/-- Takes a token if it is the expected one. -/
def expect (s : NodeReader) (p : Token → Bool) : Except Fault NodeReader := do
  if ← s.next p then return s.drop else throw .malformed

/-! ## Properties -/

/-- The properties of a node. -/
structure Properties where
  anchor : Option String := none
  tag : Option TagText := none

/-- Reads an anchor and a tag, in either order, at most one of each. -/
def properties (s : NodeReader) : Except Fault (Properties × NodeReader) :=
  match s.tokens with
  | .anchor _ :: .broken f :: _ | .tag _ :: .broken f :: _ => .error f
  | .anchor a :: .tag t :: rest => .ok (⟨some a, some t⟩, { s with tokens := rest })
  | .anchor a :: rest => .ok (⟨some a, none⟩, { s with tokens := rest })
  | .tag t :: .anchor a :: rest => .ok (⟨some a, some t⟩, { s with tokens := rest })
  | .tag t :: rest => .ok (⟨none, some t⟩, { s with tokens := rest })
  | _ => .ok ({}, s)

/-- The full text of a tag; none if a node has no tag or the one that says nothing. -/
def fullTag (s : NodeReader) : Option TagText → Except Fault (Option String)
  | none => .ok none
  | some t =>
    let full (text : String) := if text == "!" then none else some text
    match t.handle with
    | none => .ok (full t.suffix)
    | some handle => match s.handles.lookup handle with
      | some address => .ok (full (address ++ t.suffix))
      | none => .error .malformed

/-- Gives a node its number, and its anchor a name that no other anchor has. -/
def begin (s : NodeReader) (anchor : Option String) : Except Fault (Nat × NodeReader) :=
  let number := s.count + 1
  let s := { s with count := number }
  match anchor with
  | none => .ok (number, s)
  | some a =>
    if s.names.contains a then .error .malformed
    else .ok (number, { s with names := a :: s.names })

/-- Keeps a node under the name of its anchor. -/
def keep (s : NodeReader) (anchor : Option String) (n : Node) : NodeReader :=
  match anchor with
  | none => s
  | some a => { s with anchors := (a, n) :: s.anchors }

/-- The type of a collection. -/
def collectionTag (tag : Option String) (otherwise : Tag) : Tag :=
  (tag.map Tag.ofText).getD otherwise

/-- The type of a scalar. One that is plain, or has the tag that says nothing, has the type whose
    grammar it follows. -/
def scalarTag (written : Option TagText) (tag : Option String) (text : String) (isPlain : Bool) :
    Tag :=
  match tag with
  | some t => .ofText t
  | none => if isPlain || written.isSome then .ofPlain text else .text

/-! ## Nodes -/

/-- Whether nothing is written in front of the next token in a mapping. -/
def endsMember : Token → Bool
  | .key | .value | .blockEnd => true
  | _ => false

/-- Whether nothing is written in front of the next token in a sequence. -/
def endsItem : Token → Bool
  | .blockEntry | .blockEnd => true
  | _ => false

/-- Whether nothing is written in front of the next token in a sequence without indentation. -/
def endsLooseItem (t : Token) : Bool :=
  endsItem t || endsMember t

/-- A key mark. -/
def isKey : Token → Bool
  | .key => true
  | _ => false

/-- A value mark. -/
def isValue : Token → Bool
  | .value => true
  | _ => false

/-- A mark of a member of a block. -/
def isBlockEntry : Token → Bool
  | .blockEntry => true
  | _ => false

/-- The end of a block. -/
def isBlockEnd : Token → Bool
  | .blockEnd => true
  | _ => false

/-- A comma. -/
def isFlowEntry : Token → Bool
  | .flowEntry => true
  | _ => false

/-- The end of a flow sequence. -/
def isFlowSequenceEnd : Token → Bool
  | .flowSequenceEnd => true
  | _ => false

/-- The end of a flow mapping. -/
def isFlowMappingEnd : Token → Bool
  | .flowMappingEnd => true
  | _ => false

/-- The most levels of nodes that a document may have. -/
def maxLevels : Nat := 485

/-- Where a node stands: in a block, in a block where a sequence needs no indentation, or in a
    flow. -/
inductive Position where
  | block | loose | flow
  deriving DecidableEq

mutual

/-- Reads a node with at most `levels` levels. -/
def node : (fuel levels : Nat) → Position → NodeReader → Except Fault (Node × NodeReader)
  | 0, _, _, _ => .error .malformed
  | _, 0, _, _ => .error .tooDeep
  | fuel + 1, levels + 1, position, s => do
    if let .alias name :: rest := s.tokens then
      if s.names.contains name then return (.reference name, { s with tokens := rest })
      else throw .malformed
    let (props, s) ← s.properties
    let tag ← s.fullTag props.tag
    let t ← s.head
    let (number, s) ← s.begin props.anchor
    let seqTag := collectionTag tag .sequence
    let mapTag := collectionTag tag .mapping
    let done (r : Node × NodeReader) : Except Fault (Node × NodeReader) :=
      .ok (r.1, r.2.keep props.anchor r.1)
    let nothing : Node := .scalar number (scalarTag props.tag tag "" true) ""
    match t with
    | .scalar text isPlain =>
      let scalar : Node := .scalar number (scalarTag props.tag tag text isPlain) text
      done (scalar, s.drop)
    | .flowSequence =>
      let (ns, s) ← flowItems fuel levels true s.drop
      done (.sequence number seqTag ns, s)
    | .flowMapping =>
      let (es, s) ← flowMembers fuel levels true s.drop
      done (.mapping number mapTag es, s)
    | .blockEntry =>
      if position == .loose then
        let (ns, s) ← looseItems fuel levels s
        done (.sequence number seqTag ns, s)
      else if props.anchor.isSome || props.tag.isSome then done (nothing, s)
      else throw .malformed
    | .blockSequence =>
      if position == .flow then throw .malformed
      let (ns, s) ← blockItems fuel levels s.drop
      done (.sequence number seqTag ns, s)
    | .blockMapping =>
      if position == .flow then throw .malformed
      let (es, s) ← blockMembers fuel levels s.drop
      done (.mapping number mapTag es, s)
    | _ =>
      if props.anchor.isSome || props.tag.isSome then done (nothing, s)
      else throw .malformed

/-- Reads a node unless nothing is written in front of the next token. -/
def nodeUnless : (fuel levels : Nat) → (Token → Bool) → Position → NodeReader →
    Except Fault (Node × NodeReader)
  | 0, _, _, _, _ => .error .malformed
  | _, 0, _, _, _ => .error .tooDeep
  | fuel + 1, levels + 1, ends, position, s => do
    if ← s.next ends then return (.empty, s) else node fuel (levels + 1) position s

/-- Reads a value if its mark is there. -/
def valueOrEmpty : (fuel levels : Nat) → (Token → Bool) → Position → NodeReader →
    Except Fault (Node × NodeReader)
  | 0, _, _, _, _ => .error .malformed
  | fuel + 1, levels, ends, position, s => do
    if ← s.next isValue then nodeUnless fuel levels ends position s.drop else return (.empty, s)

/-- Reads the items of a block sequence. -/
def blockItems : (fuel levels : Nat) → NodeReader → Except Fault (List Node × NodeReader)
  | 0, _, _ => .error .malformed
  | fuel + 1, levels, s => do
    if ← s.next isBlockEntry then
      let (n, s) ← nodeUnless fuel levels endsItem .block s.drop
      let (ns, s) ← blockItems fuel levels s
      return (n :: ns, s)
    else return ([], ← s.expect isBlockEnd)

/-- Reads the items of a sequence that is not indented. -/
def looseItems : (fuel levels : Nat) → NodeReader → Except Fault (List Node × NodeReader)
  | 0, _, _ => .error .malformed
  | fuel + 1, levels, s => do
    if ← s.next isBlockEntry then
      let (n, s) ← nodeUnless fuel levels endsLooseItem .block s.drop
      let (ns, s) ← looseItems fuel levels s
      return (n :: ns, s)
    else return ([], s)

/-- Reads the members of a block mapping. -/
def blockMembers : (fuel levels : Nat) → NodeReader → Except Fault (List (Node × Node) × NodeReader)
  | 0, _, _ => .error .malformed
  | fuel + 1, levels, s => do
    if ← s.next isKey then
      let (k, s) ← nodeUnless fuel levels endsMember .loose s.drop
      let (v, s) ← valueOrEmpty fuel levels endsMember .loose s
      let (es, s) ← blockMembers fuel levels s
      return ((k, v) :: es, s)
    else return ([], ← s.expect isBlockEnd)

/-- Reads the items of a flow sequence. A key among them makes a mapping of one member. -/
def flowItems : (fuel levels : Nat) → (first : Bool) → NodeReader →
    Except Fault (List Node × NodeReader)
  | 0, _, _, _ => .error .malformed
  | fuel + 1, levels, first, s => do
    if ← s.next isFlowSequenceEnd then return ([], s.drop)
    let s ← if first then pure s else s.expect isFlowEntry
    if ← s.next isFlowSequenceEnd then return ([], s.drop)
    let (n, s) ← if ← s.next isKey then flowPair fuel levels s else node fuel levels .flow s
    let (ns, s) ← flowItems fuel levels false s
    return (n :: ns, s)

/-- Reads the mapping of one member that a key in a flow sequence makes. -/
def flowPair : (fuel levels : Nat) → NodeReader → Except Fault (Node × NodeReader)
  | 0, _, _ => .error .malformed
  | _, 0, _ => .error .tooDeep
  | fuel + 1, levels + 1, s => do
    let ends (t : Token) := isFlowEntry t || isFlowSequenceEnd t
    let (number, s) ← s.begin none
    let (k, s) ← nodeUnless fuel levels (fun t => isValue t || ends t) .flow s.drop
    let (v, s) ← valueOrEmpty fuel levels ends .flow s
    return (.mapping number .mapping [(k, v)], s)

/-- Reads the members of a flow mapping. One without a key mark has no value. -/
def flowMembers : (fuel levels : Nat) → (first : Bool) → NodeReader →
    Except Fault (List (Node × Node) × NodeReader)
  | 0, _, _, _ => .error .malformed
  | fuel + 1, levels, first, s => do
    if ← s.next isFlowMappingEnd then return ([], s.drop)
    let s ← if first then pure s else s.expect isFlowEntry
    if ← s.next isFlowMappingEnd then return ([], s.drop)
    let (k, v, s) ← if ← s.next isKey then do
        let ends (t : Token) := isFlowEntry t || isFlowMappingEnd t
        let (k, s) ← nodeUnless fuel levels (fun t => isValue t || ends t) .flow s.drop
        let (v, s) ← valueOrEmpty fuel levels ends .flow s
        pure (k, v, s)
      else do
        let (k, s) ← node fuel levels .flow s
        pure (k, Node.empty, s)
    let (es, s) ← flowMembers fuel levels false s
    return ((k, v) :: es, s)

end

/-! ## Documents -/

/-- The names of tags that need no directive. -/
def standardHandles : List (String × String) :=
  [("!", "!"), ("!!", Tag.home)]

/-- Reads the directives in front of a document: the names of tags, each given once, and at most one
    version, which is a first one. -/
def directives : (versioned : Bool) → (handles : List (String × String)) → List Token →
    Except Fault (List (String × String) × List Token)
  | versioned, handles, .directive d :: rest =>
    match d with
    | .version major _ =>
      if versioned || major != 1 then .error .malformed else directives true handles rest
    | .tag handle address =>
      if (handles.lookup handle).isSome then .error .malformed
      else directives versioned ((handle, address) :: handles) rest
    | .other _ => directives versioned handles rest
  | _, handles, ts => .ok (handles, ts)

/-- Whether a document without a node ends in front of a token. -/
def endsDocument : Token → Bool
  | .directive _ | .documentStart | .documentEnd | .streamEnd => true
  | _ => false

/-- A mark that begins a document. -/
def isDocumentStart : Token → Bool
  | .documentStart => true
  | _ => false

/-- Drops marks that end a document. -/
def dropEnds : List Token → List Token
  | .documentEnd :: rest => dropEnds rest
  | ts => ts

/-- Reads what begins a document that does not begin with its node: directives and its mark. The
    names of tags stay known. -/
def start (ts : List Token) : Except Fault NodeReader := do
  let (handles, ts) ← directives false [] ts
  let s : NodeReader := { tokens := ts, handles := handles ++ standardHandles }
  s.expect isDocumentStart

/-- Reads a document. -/
def document (fuel : Nat) (ts : List Token) : Except Fault (Node × NodeReader) :=
  match ts with
  | .directive _ :: _ | .documentStart :: _ => do
    nodeUnless fuel maxLevels endsDocument .block (← start ts)
  | _ => node fuel maxLevels .block { tokens := ts, handles := standardHandles }

end NodeReader

/-- The document that a text holds; none if it holds none. What follows it is read as far as it
    would begin another one. -/
def documentOf (cs : List Char) : Except Fault (Option Document) :=
  match tokens cs with
  | [.streamEnd] => .ok none
  | ts => do
    let (n, s) ← NodeReader.document (4 * ts.length + 8) ts
    match NodeReader.dropEnds s.tokens with
    | [.streamEnd] => return some ⟨n, s.anchors, s.count⟩
    | ts => do
      let _ ← NodeReader.start ts
      throw .malformed

end EntityGraph.Yaml
