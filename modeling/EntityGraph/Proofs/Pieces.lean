import EntityGraph.Proofs.Placement

/-!
The pieces of a schema text, one after the other: which one comes first depends on what stands at
the beginning of the text, and the others are those of the text behind it. Where the text itself
begins makes no difference but for the numbers of lines (`piecesFrom_later`).
-/
namespace EntityGraph.Schema

variable {kind : BlockKind} {name directives head inner body after front cs : List Char}
  {h : Heading} {fresh : Bool}

/-! ## Headings on a line -/

theorem heading?_eq_none : heading? cs = none ↔ ∀ h, ¬ Headed h cs := by
  simp [Option.eq_none_iff_forall_ne_some, heading?_eq_some]

theorem Headed.chars (headed : Headed h cs) :
    ∃ front, cs = front ++ h.rest ∧ ∀ c ∈ front, isIndent c = true ∨ Text.isWordChar c = true := by
  obtain ⟨indent, gap, rfl, indented, -, blank, -, word, -⟩ := headed
  have keyword : ∀ c ∈ h.kind.keyword.toList, Text.isWordChar c = true := by
    rw [← List.all_eq_true]
    cases h.kind <;> decide
  refine ⟨indent ++ (h.kind.keyword.toList ++ (gap ++ h.name)), by simp, ?_⟩
  intro c member
  simp only [List.mem_append] at member
  rcases member with inside | inside | inside | inside
  · exact .inl (indented c inside)
  · exact .inr (keyword c inside)
  · exact .inl (blank c inside)
  · exact .inr (word c inside)

/-- A heading ends in front of a character that is neither a blank of it nor in a name. -/
theorem Headed.exists_rest {c : Char} (indent : isIndent c = false)
    (word : Text.isWordChar c = false) (headed : Headed h (front ++ c :: cs)) :
    ∃ rest, h.rest = rest ++ c :: cs ∧ Headed ⟨h.kind, h.name, rest⟩ front := by
  obtain ⟨first, split, chars⟩ := headed.chars
  have rest : ∃ rest, h.rest = rest ++ c :: cs := by
    rcases List.append_eq_append_iff.1 split with ⟨more, rfl, behind⟩ | ⟨more, rfl, behind⟩
    · cases more with
      | nil => exact ⟨[], behind.symm⟩
      | cons d more =>
        obtain ⟨rfl, -⟩ := List.cons.inj behind
        have inside := chars c (by simp)
        simp [indent, word] at inside
    · exact ⟨more, behind⟩
  obtain ⟨rest, behind⟩ := rest
  obtain ⟨head, same, headed'⟩ := headed.take behind
  obtain rfl := List.append_cancel_right same
  exact ⟨rest, behind, headed'⟩

/-- A heading goes on with what stands behind it, unless its name would go on. -/
theorem Headed.append {rest : List Char} (headed : Headed ⟨kind, name, rest⟩ cs) (more : List Char)
    (stops : ∀ c ∈ more.head?, Text.isWordChar c = false) :
    Headed ⟨kind, name, rest ++ more⟩ (cs ++ more) := by
  obtain ⟨indent, gap, rfl, indented, wide, blank, named, word, ends⟩ := headed
  refine ⟨indent, gap, by simp, indented, wide, blank, named, word, ?_⟩
  intro c first
  cases rest with
  | nil => exact stops c first
  | cons d rest => exact ends c first

/-! ## Texts without a header -/

theorem piecesFrom_newline (line : Nat) (cs : List Char) :
    piecesFrom line false ('\n' :: cs) = piecesFrom (line + 1) true cs := by
  conv_lhs => rw [piecesFrom, if_pos rfl]

theorem piecesFrom_inside (line : Nat) (cs : List Char) (oneLine : '\n' ∉ front) :
    piecesFrom line false (front ++ cs) = piecesFrom line false cs := by
  induction front with
  | nil => rfl
  | cons c rest ih =>
    simp only [List.mem_cons, not_or] at oneLine
    rw [List.cons_append, piecesFrom, if_neg (Ne.symm oneLine.1), ih oneLine.2]

theorem piecesFrom_plain (line : Nat) (plain : ∀ h, ¬ Headed h cs) :
    piecesFrom line true cs = piecesFrom line false cs := by
  rw [piecesFrom]
  split
  · rfl
  · rename_i found
    cases (heading?_eq_none.2 plain).symm.trans found

/-- A line without a heading, with its end, has no part in what is found. -/
theorem piecesFrom_line (line : Nat) (cs : List Char) (oneLine : '\n' ∉ front)
    (plain : ∀ h, ¬ Headed h front) :
    piecesFrom line true (front ++ '\n' :: cs) = piecesFrom (line + 1) true cs := by
  have none : ∀ h, ¬ Headed h (front ++ '\n' :: cs) := by
    intro h headed
    obtain ⟨rest, -, headed'⟩ := headed.exists_rest (by decide) (by decide)
    exact plain _ headed'
  rw [piecesFrom_plain line none, piecesFrom_inside line _ oneLine, piecesFrom_newline]

theorem piecesFrom_headless (line : Nat) (headed : Headed h cs) (bare : h.Headless) :
    piecesFrom line true cs =
      .headless h.kind (String.ofList h.name) line :: piecesFrom line false cs := by
  rw [piecesFrom]
  split
  · rename_i none
    rw [heading?_eq_some.2 headed] at none
    cases none
  · rename_i found
    obtain rfl := headed.unique (heading?_eq_some.1 found)
    dsimp only
    split
    · rfl
    · rename_i directives inner opens
      exact absurd (opening_iff.2 ⟨directives, opens⟩) (bare inner)

/-! ## Texts with a header -/

/-- A header, the directives of which do not end in a blank, in front of its brace. -/
structure Preface (kind : BlockKind) (name directives head : List Char) : Prop where
  header : Header kind name directives head
  solid : ∀ c ∈ directives.getLast?, Text.isBlank c = false

/-- A header is made up of its kind, its name, directives and blanks. -/
theorem preface_of_name (kind : BlockKind) {gap : List Char} (named : name ≠ [])
    (word : ∀ c ∈ name, Text.isWordChar c = true) (inside : ∀ c ∈ directives, inHeader c = true)
    (solid : ∀ c ∈ directives.getLast?, Text.isBlank c = false)
    (blank : ∀ c ∈ gap, Text.isBlank c = true)
    (stops : ∀ c ∈ (directives ++ gap).head?, Text.isWordChar c = false) :
    Preface kind name directives (kind.keyword.toList ++ ' ' :: (name ++ (directives ++ gap))) := by
  refine ⟨⟨gap, ?_, inside, blank⟩, solid⟩
  exact ⟨[], [' '], rfl, by simp, by simp, by simp [isIndent], named, word, stops⟩

theorem preface_of_opening? (headed : Headed h cs)
    (opens : opening? h.rest = some (directives, inner)) :
    ∃ head, cs = head ++ '\x7b' :: inner ∧ Preface h.kind h.name directives head ∧
      head.count '\n' = (h.rest.take (h.rest.length - inner.length)).count '\n' := by
  obtain ⟨head, split, header, lines⟩ := exists_header headed opens
  obtain ⟨-, -, -, solid, -⟩ := opening?_eq_some.1 opens
  refine ⟨head, split, ⟨header, solid⟩, ?_⟩
  rw [← lines, List.count_append]
  rfl

theorem Preface.reads (preface : Preface kind name directives head) (inner : List Char) :
    ∃ rest, Headed ⟨kind, name, rest⟩ (head ++ '\x7b' :: inner) ∧
      opening? rest = some (directives, inner) ∧
      (rest.take (rest.length - inner.length)).count '\n' = head.count '\n' := by
  obtain ⟨⟨gap, headed, inside, blank⟩, solid⟩ := preface
  have headed' : Headed ⟨kind, name, directives ++ gap ++ '\x7b' :: inner⟩ (head ++ '\x7b' :: inner) :=
    headed.append _ (by rintro c ⟨⟩; rfl)
  have found : opening? (directives ++ gap ++ '\x7b' :: inner) = some (directives, inner) :=
    opening?_eq_some.2 ⟨gap, by simp, inside, solid, blank⟩
  obtain ⟨head', split, -, lines⟩ := preface_of_opening? headed' found
  obtain rfl := List.append_cancel_right split
  exact ⟨_, headed', found, lines.symm⟩

/-- What a header opens is decided by the braces behind it. -/
private theorem piecesFrom_preface (line : Nat) (preface : Preface kind name directives head)
    (inner : List Char) :
    piecesFrom line true (head ++ '\x7b' :: inner) =
      match closing? 0 inner with
      | none =>
        .unclosed kind (String.ofList name) line ::
          piecesFrom (line + head.count '\n') false inner
      | some (body, after) =>
        .block ⟨kind, String.ofList name, directivesOf directives,
            numbered (line + head.count '\n') (linesOf body)⟩ ::
          piecesFrom (line + head.count '\n' + body.count '\n') false after := by
  obtain ⟨rest, headed, opening, lines⟩ := preface.reads inner
  conv_lhs => rw [piecesFrom]
  split
  · rename_i none
    rw [heading?_eq_some.2 headed] at none
    cases none
  · rename_i found
    obtain rfl := headed.unique (heading?_eq_some.1 found)
    dsimp only
    split
    · rename_i none
      cases opening.symm.trans none
    · rename_i found
      cases opening.symm.trans found
      rw [lines]
      split
      · rename_i none
        rw [none]
      · rename_i found
        rw [found]

/-- A header behind which every brace that is closed was opened is passed over, with its brace. -/
theorem piecesFrom_unclosed (line : Nat) (preface : Preface kind name directives head)
    (nested : Nested 0 inner) :
    piecesFrom line true (head ++ '\x7b' :: inner) =
      .unclosed kind (String.ofList name) line ::
        piecesFrom (line + head.count '\n') false inner := by
  rw [piecesFrom_preface line preface, closing?_eq_none.2 nested]

/-- A header and a body between braces are a block. -/
theorem piecesFrom_block (line : Nat) (preface : Preface kind name directives head)
    (balanced : Balanced 0 body) (after : List Char) :
    piecesFrom line true (head ++ '\x7b' :: (body ++ '\x7d' :: after)) =
      .block ⟨kind, String.ofList name, directivesOf directives,
          numbered (line + head.count '\n') (linesOf body)⟩ ::
        piecesFrom (line + head.count '\n' + body.count '\n') false after := by
  rw [piecesFrom_preface line preface, closing?_eq_some.2 ⟨rfl, balanced⟩]

/-! ## Further down -/

/-- A block that stands some lines further down. -/
def Block.later (k : Nat) (b : Block) : Block :=
  { b with lines := b.lines.map fun line => (line.1 + k, line.2) }

/-- A piece that stands some lines further down. -/
def Piece.later (k : Nat) : Piece → Piece
  | .block b => .block (b.later k)
  | .unclosed kind name line => .unclosed kind name (line + k)
  | .headless kind name line => .headless kind name (line + k)

theorem numbered_later (k n : Nat) (lines : List (List Char)) :
    numbered (n + k) lines = (numbered n lines).map fun line => (line.1 + k, line.2) := by
  induction lines generalizing n with
  | nil => rfl
  | cons line rest ih => rw [numbered, Nat.add_right_comm, ih]; rfl

/-- The number of the line on which a text begins is only counted on from. -/
theorem piecesFrom_later (k line : Nat) (fresh : Bool) (cs : List Char) :
    piecesFrom (line + k) fresh cs = (piecesFrom line fresh cs).map (Piece.later k) := by
  -- Every step counts from the line on which it begins, so all numbers move by as much.
  fun_induction piecesFrom line fresh cs with
  | case1 line cs none ih =>
    rw [piecesFrom_plain _ (heading?_eq_none.1 none), ih]
  | case2 line cs h heading name headless =>
    rename_i ih
    have bare : h.Headless := by
      intro inner opening
      obtain ⟨directives, opens⟩ := opening_iff.1 opening
      cases headless.symm.trans opens
    rw [piecesFrom_headless _ (heading?_eq_some.1 heading) bare, ih]
    rfl
  | case3 line cs h heading name directives inner opens bodyLine unclosed =>
    rename_i ih
    obtain ⟨head, rfl, header, lines⟩ := preface_of_opening? (heading?_eq_some.1 heading) opens
    have down : line + k + head.count '\n' = bodyLine + k := by omega
    rw [piecesFrom_unclosed _ header (closing?_eq_none.1 unclosed), down, ih]
    rfl
  | case4 line cs h heading name directives inner opens bodyLine body after closes =>
    rename_i ih
    obtain ⟨head, rfl, header, lines⟩ := preface_of_opening? (heading?_eq_some.1 heading) opens
    obtain ⟨rfl, balanced⟩ := closing?_eq_some.1 closes
    have down : line + k + head.count '\n' = bodyLine + k := by omega
    rw [piecesFrom_block _ header balanced, down, Nat.add_right_comm bodyLine, ih, numbered_later]
    rfl
  | case5 line => rw [piecesFrom]; rfl
  | case6 line rest ih => rw [piecesFrom_newline, ← ih, Nat.add_right_comm]
  | case7 line c rest notEnd ih => rw [piecesFrom, if_neg notEnd, ih]

end EntityGraph.Schema
