import EntityGraph.Text.Utf
import EntityGraph.Yaml.Scalar

/-!
Properties of nodes, and directives: anchors, tags, and the lines in front of a document that give
tags short names.
-/
namespace EntityGraph.Yaml

/-- The characters of names. -/
def isNameChar (c : Char) : Bool :=
  c.isAlphanum || c == '-' || c == '_'

/-- The characters of a tag's address. -/
def isAddressChar (c : Char) : Bool :=
  c.isAlphanum || "-;/?:@&=+$,_.!~*'()[]%".toList.contains c

/-! ## Anchors -/

/-- The name of an anchor, or of an alias for it, behind its mark. -/
def anchorName (c : Cursor) : Except Fault (String × Cursor) :=
  let (name, c) := c.span isNameChar
  let ends := c.peek.all fun x => isSpace x || isBreak x || "?:,]\x7d%@`".toList.contains x
  if name.isEmpty || !ends then .error .malformed else .ok (String.ofList name, c)

/-! ## Tags -/

/-- A tag as it is written: a handle that stands for the beginning of an address, if there is one,
    and the rest. -/
structure TagText where
  handle : Option String
  suffix : String

/-- Bytes that are written in hexadecimal digits. -/
def addressBytes : (fuel : Nat) → Cursor → Except Fault (List UInt8 × Cursor)
  | 0, _ => .error .malformed
  | fuel + 1, c =>
    if c.stands '%' then
      match hexNumber? 2 c.next.rest with
      | none => .error .malformed
      | some n => (addressBytes fuel (c.skip 3)).map fun (bs, c) => (n.toUInt8 :: bs, c)
    else .ok ([], c)

/-- The characters of an address. -/
def addressChars : (fuel : Nat) → Cursor → Except Fault (List Char × Cursor)
  | 0, _ => .error .malformed
  | fuel + 1, c =>
    match c.peek with
    | none => .ok ([], c)
    | some x =>
      if x == '%' then do
        let (bs, c) ← addressBytes fuel c
        match Text.utf8? bs with
        | none => throw .malformed
        | some xs =>
          let (ys, c) ← addressChars fuel c
          return (xs ++ ys, c)
      else if isAddressChar x then (addressChars fuel c.next).map fun (ys, c) => (x :: ys, c)
      else .ok ([], c)

/-- An address, which is not empty. -/
def address (c : Cursor) : Except Fault (String × Cursor) := do
  let (xs, c') ← addressChars c.rest.length.succ.succ c
  if c'.index = c.index then throw .malformed
  return (String.ofList xs, c')

/-- A handle: an exclamation mark, or a name between two. -/
def tagHandle (c : Cursor) : Except Fault (String × Cursor) :=
  if !c.stands '!' then .error .malformed
  else if c.next.stands ' ' then .ok ("!", c.next)
  else
    let (name, after) := c.next.span isNameChar
    if after.stands '!' then .ok (String.ofList ('!' :: name ++ ['!']), after.next)
    else .error .malformed

/-- Whether an exclamation mark stands further on in a word. -/
def hasHandle (c : Cursor) : Bool :=
  (c.rest.takeWhile fun x => !(x == ' ' || isBreak x)).contains '!'

/-- A tag, from its exclamation mark on. -/
def tagText (c : Cursor) : Except Fault (TagText × Cursor) := do
  let (tag, c) ← if c.next.stands '<' then do
      let (suffix, c) ← address (c.skip 2)
      if !c.stands '>' then throw .malformed
      pure (TagText.mk none suffix, c.next)
    else if endsWord c.next.peek then pure (TagText.mk none "!", c.next)
    else if hasHandle c.next then do
      let (handle, c) ← tagHandle c
      let (suffix, c) ← address c
      pure (TagText.mk (some handle) suffix, c)
    else do
      let (suffix, c) ← address c.next
      pure (TagText.mk (some "!") suffix, c)
  if endsName c.peek then return (tag, c) else throw .malformed

/-! ## Directives -/

/-- A directive in front of a document. -/
inductive Directive where
  | version (major minor : Nat)
  | tag (handle address : String)
  | other (name : String)

/-- The number of a version. -/
def versionNumber (c : Cursor) : Except Fault (Nat × Cursor) :=
  let (ds, c) := c.span Char.isDigit
  if ds.isEmpty then .error .malformed
  else if Decimal.maxDigits < ds.length then .error (.digits ⟨ds.length⟩)
  else .ok (Decimal.natOfDigits 10 (ds.map fun d => d.toNat - 0x30), c)

/-- A version of the language. -/
def versionDirective (c : Cursor) : Except Fault (Directive × Cursor) := do
  let (major, c) ← versionNumber c.skipSpaces
  if !c.stands '.' then throw .malformed
  let (minor, c) ← versionNumber c.next
  if endsName c.peek then return (.version major minor, c) else throw .malformed

/-- A handle with what it stands for. -/
def tagDirective (c : Cursor) : Except Fault (Directive × Cursor) := do
  let (handle, c) ← tagHandle c.skipSpaces
  if !c.stands ' ' then throw .malformed
  let (prefixed, c) ← address c.skipSpaces
  if endsName c.peek then return (.tag handle prefixed, c) else throw .malformed

/-- A directive behind its mark. -/
def directive (c : Cursor) : Except Fault (Directive × Cursor) := do
  let (name, c) := c.span isNameChar
  if name.isEmpty || !endsName c.peek then throw .malformed
  let (d, c) ← match String.ofList name with
    | "YAML" => versionDirective c
    | "TAG" => tagDirective c
    | name => pure (Directive.other name, c.skipWhile (!isBreak ·))
  let c := c.skipSpaces.skipComment
  if endsLine c.peek then return (d, c.skipLineBreak) else throw .malformed

end EntityGraph.Yaml
