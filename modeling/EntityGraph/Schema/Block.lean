import EntityGraph.Schema.Declaration

/-!
Blocks: the `type` and `enum` declarations of a schema text, with their bodies as numbered lines.

`pieces` reads a text once from its beginning. A header begins a line; a body ends at the brace that
balances its opening one. A header whose body never ends is passed over, and so is one without a
body, and reading goes on behind it.
-/
namespace EntityGraph.Schema

/-- What a block declares. -/
inductive BlockKind where
  | type | enum
  deriving DecidableEq, Repr

/-- The word that opens a block. -/
def BlockKind.keyword : BlockKind → String
  | .type => "type"
  | .enum => "enum"

/-- A block with the numbered lines of its body. -/
structure Block where
  kind : BlockKind
  name : String
  directives : Directives
  lines : List (Nat × String)
  deriving DecidableEq, Repr

namespace Block

/-- The block that describes the application. -/
def isConfig (b : Block) : Bool :=
  b.kind == .type && b.directives.has "config"

/-- A block that lists the values of an enumeration. -/
def isEnum (b : Block) : Bool :=
  b.kind == .enum

/-- A block that declares an entity. -/
def isEntity (b : Block) : Bool :=
  b.kind == .type && !b.isConfig

/-- The lines of the body that say something: trimmed, without blank lines and comments. -/
def contentLines (b : Block) : List (Nat × String) :=
  b.lines.filterMap fun (n, line) =>
    let cs := Text.trimChars line.toList
    if cs.isEmpty || cs.head? == some '#' then none else some (n, String.ofList cs)

end Block

/-! ## Headers -/

/-- The blanks within a line of a header. -/
def isIndent (c : Char) : Bool :=
  c == ' ' || c == '\t'

/-- Reads the word that opens a block. -/
def keyword? : List Char → Option (BlockKind × List Char)
  | 't' :: 'y' :: 'p' :: 'e' :: rest => some (.type, rest)
  | 'e' :: 'n' :: 'u' :: 'm' :: rest => some (.enum, rest)
  | _ => none

/-- A header from the beginning of its line up to its name. -/
structure Heading where
  kind : BlockKind
  name : List Char
  rest : List Char

/-- Reads the kind and the name of a block at the beginning of a line. -/
def heading? (cs : List Char) : Option Heading :=
  match keyword? (cs.dropWhile isIndent) with
  | none => none
  | some (kind, rest) =>
    match rest with
    | [] => none
    | c :: _ =>
      if isIndent c then
        let rest := rest.dropWhile isIndent
        let name := rest.takeWhile Text.isWordChar
        if name.isEmpty then none else some ⟨kind, name, rest.dropWhile Text.isWordChar⟩
      else none

/-- Neither a brace nor the end of the line. -/
def inHeader (c : Char) : Bool :=
  c != '\x7b' && c != '\x7d' && c != '\n'

/-- What stands between the name and the opening brace, and the text behind that brace. The brace
    may stand further down if only blanks come before it. -/
def opening? (cs : List Char) : Option (List Char × List Char) :=
  match (cs.dropWhile inHeader).dropWhile Text.isBlank with
  | '\x7b' :: rest => some (Text.stripEnd Text.isBlank (cs.takeWhile inHeader), rest)
  | _ => none

/-! ## Bodies -/

/-- The text up to the brace that closes `depth + 1` open ones, and the text behind it. -/
def closing? : (depth : Nat) → List Char → Option (List Char × List Char)
  | _, [] => none
  | depth, c :: rest =>
    if c = '\x7b' then (closing? (depth + 1) rest).map fun (body, after) => (c :: body, after)
    else if c = '\x7d' then
      match depth with
      | 0 => some ([], rest)
      | depth + 1 => (closing? depth rest).map fun (body, after) => (c :: body, after)
    else (closing? depth rest).map fun (body, after) => (c :: body, after)

/-- The lines of a text. -/
def linesOf : List Char → List (List Char)
  | [] => [[]]
  | c :: rest =>
    if c = '\n' then [] :: linesOf rest
    else match linesOf rest with
      | [] => [[c]]
      | line :: lines => (c :: line) :: lines

/-- Texts with consecutive numbers. -/
def numbered : Nat → List (List Char) → List (Nat × String)
  | _, [] => []
  | n, line :: rest => (n, String.ofList line) :: numbered (n + 1) rest

/-! ## Pieces -/

/-- What reading finds: a block, a header whose body never ends, or a header without a body. -/
inductive Piece where
  | block (b : Block)
  | unclosed (kind : BlockKind) (name : String) (line : Nat)
  | headless (kind : BlockKind) (name : String) (line : Nat)
  deriving DecidableEq, Repr

theorem length_of_keyword? {cs rest : List Char} {kind : BlockKind}
    (h : keyword? cs = some (kind, rest)) : rest.length < cs.length := by
  unfold keyword? at h
  split at h <;> simp at h
  · obtain ⟨_, rfl⟩ := h; simp only [List.length_cons]; omega
  · obtain ⟨_, rfl⟩ := h; simp only [List.length_cons]; omega

theorem length_of_heading? {cs : List Char} {h : Heading} (e : heading? cs = some h) :
    h.rest.length < cs.length := by
  unfold heading? at e
  split at e
  · simp at e
  · rename_i kind rest heq
    have below := length_of_keyword? heq
    have blanks := (List.dropWhile_sublist (l := cs) isIndent).length_le
    split at e
    · simp at e
    · rename_i c tail
      split at e
      · simp only at e
        split at e
        · simp at e
        · simp only [Option.some.injEq] at e
          subst e
          have h1 := (List.dropWhile_sublist (l := c :: tail) isIndent).length_le
          have h2 : (((c :: tail).dropWhile isIndent).dropWhile Text.isWordChar).length ≤
              ((c :: tail).dropWhile isIndent).length :=
            (List.dropWhile_sublist Text.isWordChar).length_le
          simp only at *
          omega
      · simp at e

theorem length_of_opening? {cs header rest : List Char} (e : opening? cs = some (header, rest)) :
    rest.length < cs.length := by
  unfold opening? at e
  split at e
  · rename_i heq
    have h1 := (List.dropWhile_sublist (l := cs) inHeader).length_le
    have h2 := (List.dropWhile_sublist (l := cs.dropWhile inHeader) Text.isBlank).length_le
    rw [heq] at h2
    simp only [List.length_cons] at h2
    simp only [Option.some.injEq, Prod.mk.injEq] at e
    obtain ⟨_, rfl⟩ := e
    omega
  · simp at e

theorem length_of_closing? {cs body rest : List Char} {depth : Nat}
    (e : closing? depth cs = some (body, rest)) : rest.length < cs.length := by
  induction cs generalizing depth body with
  | nil => simp [closing?] at e
  | cons c tail ih =>
    unfold closing? at e
    split at e
    · obtain ⟨⟨b, a⟩, found, same⟩ := Option.map_eq_some_iff.1 e
      simp only [Prod.mk.injEq] at same
      obtain ⟨_, rfl⟩ := same
      have := ih found
      simp only [List.length_cons]; omega
    · split at e
      · split at e
        · simp only [Option.some.injEq, Prod.mk.injEq] at e
          obtain ⟨_, rfl⟩ := e
          simp
        · obtain ⟨⟨b, a⟩, found, same⟩ := Option.map_eq_some_iff.1 e
          simp only [Prod.mk.injEq] at same
          obtain ⟨_, rfl⟩ := same
          have := ih found
          simp only [List.length_cons]; omega
      · obtain ⟨⟨b, a⟩, found, same⟩ := Option.map_eq_some_iff.1 e
        simp only [Prod.mk.injEq] at same
        obtain ⟨_, rfl⟩ := same
        have := ih found
        simp only [List.length_cons]; omega

/-- The pieces of a text whose first character stands on line `line`, at its beginning if
    `lineStart`. -/
def piecesFrom (line : Nat) (lineStart : Bool) (cs : List Char) : List Piece :=
  match lineStart with
  | true =>
    match _hh : heading? cs with
    | none => piecesFrom line false cs
    | some heading =>
      let name := String.ofList heading.name
      match _ho : opening? heading.rest with
      | none => .headless heading.kind name line :: piecesFrom line false cs
      | some (header, inner) =>
        let bodyLine := line + (heading.rest.take (heading.rest.length - inner.length)).count '\n'
        match _hc : closing? 0 inner with
        | none => .unclosed heading.kind name line :: piecesFrom bodyLine false inner
        | some (body, after) =>
          .block ⟨heading.kind, name, directivesOf header, numbered bodyLine (linesOf body)⟩ ::
            piecesFrom (bodyLine + body.count '\n') false after
  | false =>
    match cs with
    | [] => []
    | c :: rest => if c = '\n' then piecesFrom (line + 1) true rest else piecesFrom line false rest
-- A number as the measure lets texts be cut up by evaluation.
termination_by 2 * cs.length + lineStart.toNat
decreasing_by
  · simp
  · simp
  · have h1 := length_of_heading? _hh
    have h2 := length_of_opening? _ho
    simp only [Bool.toNat_true, Bool.toNat_false]; omega
  · have h1 := length_of_heading? _hh
    have h2 := length_of_opening? _ho
    have h3 := length_of_closing? _hc
    simp only [Bool.toNat_true, Bool.toNat_false]; omega
  · simp only [List.length_cons, Bool.toNat_true, Bool.toNat_false]; omega
  · simp only [List.length_cons, Bool.toNat_false]; omega

/-- The pieces of a text. -/
def pieces (s : String) : List Piece :=
  piecesFrom 1 true s.toList

/-- The block of a piece. -/
def Piece.block? : Piece → Option Block
  | .block b => some b
  | _ => none

/-- The blocks of a text. -/
def blocks (s : String) : List Block :=
  (pieces s).filterMap Piece.block?

end EntityGraph.Schema
