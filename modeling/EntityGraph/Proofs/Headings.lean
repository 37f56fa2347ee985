import EntityGraph.Proofs.Trim
import EntityGraph.Schema.Block

/-!
What headers and bodies of blocks look like. A heading is made up of blanks, a keyword, more blanks
and a name; behind it the header goes on up to the opening brace. A body is balanced, and no
beginning of it closes more braces than it opens.
-/
namespace EntityGraph

namespace Text

variable {p : Char → Bool} {front back : List Char}

theorem takeWhile_append_of_head (inside : ∀ c ∈ front, p c = true)
    (stops : ∀ c ∈ back.head?, p c = false) : (front ++ back).takeWhile p = front := by
  rw [List.takeWhile_append_of_pos inside]
  cases back with
  | nil => exact List.append_nil front
  | cons c rest => rw [List.takeWhile_cons, stops c rfl, if_neg Bool.false_ne_true, List.append_nil]

theorem dropWhile_append_of_head (inside : ∀ c ∈ front, p c = true)
    (stops : ∀ c ∈ back.head?, p c = false) : (front ++ back).dropWhile p = back := by
  rw [List.dropWhile_append_of_pos inside, dropWhile_of_head stops]

end Text

namespace Schema

/-! ## Headings -/

theorem keyword?_eq_some {cs rest : List Char} {kind : BlockKind} :
    keyword? cs = some (kind, rest) ↔ cs = kind.keyword.toList ++ rest := by
  constructor
  · intro found
    unfold keyword? at found
    split at found
    · obtain ⟨rfl, rfl⟩ := Prod.mk.inj (Option.some.inj found)
      rfl
    · obtain ⟨rfl, rfl⟩ := Prod.mk.inj (Option.some.inj found)
      rfl
    · cases found
  · rintro rfl
    cases kind <;> rfl

/-- A text that begins with the heading of a block: blanks, the word of its kind, more blanks and a
    name, which ends where its word characters end. -/
def Headed (h : Heading) (cs : List Char) : Prop :=
  ∃ indent gap, cs = indent ++ (h.kind.keyword.toList ++ (gap ++ (h.name ++ h.rest))) ∧
    (∀ c ∈ indent, isIndent c = true) ∧ gap ≠ [] ∧ (∀ c ∈ gap, isIndent c = true) ∧
    h.name ≠ [] ∧ (∀ c ∈ h.name, Text.isWordChar c = true) ∧
    ∀ c ∈ h.rest.head?, Text.isWordChar c = false

theorem keyword_head (kind : BlockKind) (rest : List Char) :
    ∀ c ∈ (kind.keyword.toList ++ rest).head?,
      isIndent c = false ∧ Text.isBlank c = false ∧ c ≠ '\x7b' := by
  cases kind <;> rintro c ⟨⟩ <;> decide

theorem isBlank_of_isIndent {c : Char} (blank : isIndent c = true) : Text.isBlank c = true := by
  simp only [isIndent, Bool.or_eq_true, beq_iff_eq] at blank
  rcases blank with rfl | rfl <;> rfl

theorem notIndent_of_isWordChar {c : Char} (word : Text.isWordChar c = true) :
    isIndent c = false := by
  cases blank : isIndent c with
  | false => rfl
  | true =>
    have solid := Text.notBlank_of_isWordChar word
    exact absurd (isBlank_of_isIndent blank) (Bool.eq_false_iff.1 solid)

theorem heading?_eq_some {cs : List Char} {h : Heading} : heading? cs = some h ↔ Headed h cs := by
  constructor
  · intro found
    unfold heading? at found
    split at found
    · cases found
    · rename_i kind rest keyword
      split at found
      · cases found
      · rename_i c tail
        split at found
        · rename_i blank
          dsimp only at found
          split at found
          · cases found
          · rename_i named
            cases found
            refine ⟨cs.takeWhile isIndent, (c :: tail).takeWhile isIndent, ?_, ?_, ?_, ?_, ?_, ?_,
              ?_⟩
            · rw [List.takeWhile_append_dropWhile, List.takeWhile_append_dropWhile,
                ← keyword?_eq_some.1 keyword, List.takeWhile_append_dropWhile]
            · exact fun _ => List.mem_takeWhile_imp
            · rw [List.takeWhile_cons, if_pos blank]
              exact List.cons_ne_nil _ _
            · exact fun _ => List.mem_takeWhile_imp
            · exact fun empty => named (List.isEmpty_iff.2 empty)
            · exact fun _ => List.mem_takeWhile_imp
            · exact fun _ => Text.head_dropWhile
        · cases found
  · obtain ⟨kind, name, rest⟩ := h
    rintro ⟨indent, gap, rfl, indented, wide, blank, named, word, stops⟩
    dsimp only at named word stops ⊢
    obtain ⟨c, tail, rfl⟩ := List.exists_cons_of_ne_nil wide
    obtain ⟨first, others, rfl⟩ := List.exists_cons_of_ne_nil named
    have apart : ∀ x ∈ ((first :: others) ++ rest).head?, isIndent x = false := by
      rintro x ⟨⟩
      exact notIndent_of_isWordChar (word _ List.mem_cons_self)
    have opens : ∀ x ∈ (kind.keyword.toList ++ ((c :: tail) ++ ((first :: others) ++ rest))).head?,
        isIndent x = false :=
      fun x found => (keyword_head kind _ x found).1
    have blank' : isIndent c = true := blank c List.mem_cons_self
    have name := Text.takeWhile_append_of_head word stops
    have behind := Text.dropWhile_append_of_head word stops
    unfold heading?
    rw [Text.dropWhile_append_of_head indented opens, keyword?_eq_some.2 rfl]
    change (if isIndent c = true then _ else _) = _
    rw [if_pos blank', Text.dropWhile_append_of_head blank apart]
    dsimp only
    rw [name, behind]
    rfl

theorem Headed.unique {cs : List Char} {h h' : Heading} (one : Headed h cs) (other : Headed h' cs) :
    h = h' :=
  Option.some.inj ((heading?_eq_some.2 one).symm.trans (heading?_eq_some.2 other))

/-- A heading is one with less behind it. -/
theorem Headed.take {cs front back : List Char} {h : Heading} (headed : Headed h cs)
    (split : h.rest = front ++ back) :
    ∃ head, cs = head ++ back ∧ Headed ⟨h.kind, h.name, front⟩ head := by
  obtain ⟨indent, gap, rfl, indented, wide, blank, named, word, stops⟩ := headed
  refine ⟨indent ++ (h.kind.keyword.toList ++ (gap ++ (h.name ++ front))), ?_, indent, gap, rfl,
    indented, wide, blank, named, word, fun c first => stops c ?_⟩
  · simp only [split, List.append_assoc]
  · rw [split, List.head?_append, Option.mem_def.1 first]
    rfl

/-- A heading ends on the line on which it begins. -/
theorem Headed.front {cs : List Char} {h : Heading} (headed : Headed h cs) :
    ∃ front, cs = front ++ h.rest ∧ front ≠ [] ∧ '\n' ∉ front := by
  obtain ⟨indent, gap, rfl, indented, -, blank, named, word, -⟩ := headed
  refine ⟨indent ++ (h.kind.keyword.toList ++ (gap ++ h.name)), ?_, ?_, ?_⟩
  · simp only [List.append_assoc]
  · simp [named]
  · simp only [List.mem_append, not_or]
    refine ⟨fun ends => ?_, ?_, fun ends => ?_, fun ends => ?_⟩
    · cases indented _ ends
    · cases h.kind <;> decide
    · cases blank _ ends
    · cases Text.notBlank_of_isWordChar (word _ ends)

theorem brace_notBlank (rest : List Char) :
    ∀ c ∈ ('\x7b' :: rest).head?, Text.isBlank c = false := by
  rintro c ⟨⟩
  rfl

theorem not_headed_of_blank {gap rest : List Char} {h : Heading}
    (blank : ∀ c ∈ gap, Text.isBlank c = true) : ¬ Headed h (gap ++ '\x7b' :: rest) := by
  rintro ⟨indent, wide, same, indented, -⟩
  have keyword := keyword_head h.kind (wide ++ (h.name ++ h.rest))
  -- Both texts go on behind their blanks, one with a brace and the other with a keyword.
  have behind := congrArg (List.dropWhile Text.isBlank) same
  rw [Text.dropWhile_append_of_head blank (brace_notBlank rest),
    Text.dropWhile_append_of_head (fun c member => isBlank_of_isIndent (indented c member))
      fun c first => (keyword c first).2.1] at behind
  exact (keyword '\x7b' (behind ▸ rfl)).2.2 rfl

/-! ## Openings -/

/-- Between the name and the brace stand the directives, which do not end in a blank, and blanks. -/
theorem opening?_eq_some {cs header inner : List Char} :
    opening? cs = some (header, inner) ↔ ∃ gap, cs = header ++ (gap ++ '\x7b' :: inner) ∧
      (∀ c ∈ header, inHeader c = true) ∧ (∀ c ∈ header.getLast?, Text.isBlank c = false) ∧
      ∀ c ∈ gap, Text.isBlank c = true := by
  constructor
  · intro found
    unfold opening? at found
    split at found
    · rename_i rest brace
      obtain ⟨rfl, rfl⟩ := Prod.mk.inj (Option.some.inj found)
      obtain ⟨tail, kept, blank, solid⟩ := Text.exists_stripEnd Text.isBlank (cs.takeWhile inHeader)
      refine ⟨tail ++ (cs.dropWhile inHeader).takeWhile Text.isBlank, ?_, ?_, solid, ?_⟩
      · rw [← brace, List.append_assoc, List.takeWhile_append_dropWhile, ← List.append_assoc,
          kept, List.takeWhile_append_dropWhile]
      · intro c member
        exact List.mem_takeWhile_imp (kept ▸ List.mem_append_left _ member)
      · exact List.forall_mem_append.2 ⟨blank, fun c => List.mem_takeWhile_imp⟩
    · cases found
  · rintro ⟨gap, rfl, inside, solid, blank⟩
    -- The header ends where its last line does, so it takes the blanks of that line along.
    obtain ⟨within, beyond, rfl, near, far⟩ : ∃ within beyond, gap = within ++ beyond ∧
        (∀ c ∈ within, inHeader c = true) ∧ ∀ c ∈ beyond.head?, inHeader c = false :=
      ⟨_, _, List.takeWhile_append_dropWhile.symm, fun _ => List.mem_takeWhile_imp,
        fun _ => Text.head_dropWhile⟩
    rw [List.forall_mem_append] at blank
    have stops : ∀ c ∈ (beyond ++ '\x7b' :: inner).head?, inHeader c = false := by
      cases beyond with
      | nil => rintro c ⟨⟩; rfl
      | cons c rest => exact far
    have line : ∀ c ∈ header ++ within, inHeader c = true :=
      List.forall_mem_append.2 ⟨inside, near⟩
    have strip : Text.stripEnd Text.isBlank (header ++ within) = header := by
      rw [Text.stripEnd, List.reverse_append, Text.dropWhile_append_of_head, List.reverse_reverse]
      · exact fun c member => blank.1 c (List.mem_reverse.1 member)
      · rwa [List.head?_reverse]
    rw [List.append_assoc, ← List.append_assoc header, opening?,
      Text.takeWhile_append_of_head line stops, Text.dropWhile_append_of_head line stops,
      Text.dropWhile_append_of_head blank.2 (brace_notBlank inner), strip]
    rfl

/-- What stands behind a name that opens a body: directives on the same line, and behind them or
    further down, but for blanks, a brace. -/
def Opening (rest inner : List Char) : Prop :=
  ∃ directives gap, rest = directives ++ (gap ++ '\x7b' :: inner) ∧
    (∀ c ∈ directives, inHeader c = true) ∧ ∀ c ∈ gap, Text.isBlank c = true

theorem opening_iff {rest inner : List Char} :
    Opening rest inner ↔ ∃ directives, opening? rest = some (directives, inner) := by
  constructor
  · rintro ⟨directives, gap, rfl, inside, blank⟩
    obtain ⟨tail, kept, cut, solid⟩ := Text.exists_stripEnd Text.isBlank directives
    refine ⟨Text.stripEnd Text.isBlank directives,
      opening?_eq_some.2 ⟨tail ++ gap, ?_, ?_, solid, List.forall_mem_append.2 ⟨cut, blank⟩⟩⟩
    · rw [List.append_assoc, ← List.append_assoc (Text.stripEnd _ _), kept]
    · exact fun c member => inside c (kept ▸ List.mem_append_left _ member)
  · rintro ⟨directives, opens⟩
    obtain ⟨gap, rest, inside, -, blank⟩ := opening?_eq_some.1 opens
    exact ⟨directives, gap, rest, inside, blank⟩

/-- The text of a header up to its brace: a heading, directives on the same line, and blanks, which
    may go on over other lines. -/
def Header (kind : BlockKind) (name directives head : List Char) : Prop :=
  ∃ gap, Headed ⟨kind, name, directives ++ gap⟩ head ∧
    (∀ c ∈ directives, inHeader c = true) ∧ ∀ c ∈ gap, Text.isBlank c = true

theorem exists_header {cs directives inner : List Char} {h : Heading} (headed : Headed h cs)
    (opens : opening? h.rest = some (directives, inner)) :
    ∃ head, cs = head ++ '\x7b' :: inner ∧ Header h.kind h.name directives head ∧
      (head ++ ['\x7b']).count '\n' =
        (h.rest.take (h.rest.length - inner.length)).count '\n' := by
  obtain ⟨gap, rest, inside, -, blank⟩ := opening?_eq_some.1 opens
  rw [← List.append_assoc] at rest
  obtain ⟨head, rfl, heading⟩ := headed.take rest
  refine ⟨head, rfl, ⟨gap, heading, inside, blank⟩, ?_⟩
  obtain ⟨front, same, -, oneLine⟩ := heading.front
  have short : h.rest.take (h.rest.length - inner.length) = directives ++ gap ++ ['\x7b'] := by
    have split : h.rest = (directives ++ gap ++ ['\x7b']) ++ inner := by
      rw [rest, List.append_assoc _ ['\x7b']]
      rfl
    rw [split, List.length_append, Nat.add_sub_cancel, List.take_left]
  rw [short, same, List.append_assoc, List.count_append, List.count_eq_zero.2 oneLine, Nat.zero_add]

/-- No other heading begins on the lines of a header. -/
theorem Header.not_headed {kind : BlockKind} {name directives head front back rest : List Char}
    {h : Heading} (header : Header kind name directives head)
    (split : head ++ ['\x7b'] = front ++ back) (more : back ≠ []) (ends : '\n' ∈ front) :
    ¬ Headed h (back ++ rest) := by
  obtain ⟨gap, heading, inside, blank⟩ := header
  obtain ⟨first, rfl, -, oneLine⟩ := heading.front
  obtain ⟨last, c, rfl⟩ := (List.eq_nil_or_concat back).resolve_left more
  rw [List.concat_eq_append, ← List.append_assoc front] at split
  obtain ⟨whole, brace⟩ := List.append_inj' split rfl
  cases brace
  rw [← List.append_assoc] at whole
  rw [List.concat_eq_append, List.append_assoc]
  rcases List.append_eq_append_iff.1 whole with ⟨near, rfl, rfl⟩ | ⟨near, line, -⟩
  · exact not_headed_of_blank fun c member => blank c (List.mem_append_right _ member)
  · have early : '\n' ∈ first ++ directives := line ▸ List.mem_append_left _ ends
    rcases List.mem_append.1 early with inFirst | inDirectives
    · exact absurd inFirst oneLine
    · cases inside _ inDirectives

/-! ## Bodies -/

/-- A text none of whose beginnings closes more braces than it opens and `depth` more. -/
def Nested (depth : Nat) (cs : List Char) : Prop :=
  ∀ front, front <+: cs → front.count '\x7d' ≤ front.count '\x7b' + depth

/-- A text that closes as many braces as it opens and `depth` more, and never more than that. -/
structure Balanced (depth : Nat) (body : List Char) : Prop where
  closed : body.count '\x7b' + depth = body.count '\x7d'
  nested : Nested depth body

/-- How a character changes the number of braces that are open. -/
inductive Moves : Char → Nat → Nat → Prop
  | opens (depth : Nat) : Moves '\x7b' depth (depth + 1)
  | closes (depth : Nat) : Moves '\x7d' (depth + 1) depth
  | stays {c : Char} (depth : Nat) (noOpening : c ≠ '\x7b') (noClosing : c ≠ '\x7d') :
      Moves c depth depth

variable {depth depth' : Nat} {c : Char}

theorem exists_moves (goesOn : ¬(c = '\x7d' ∧ depth = 0)) : ∃ depth', Moves c depth depth' := by
  by_cases opening : c = '\x7b'
  · subst opening
    exact ⟨_, .opens depth⟩
  · by_cases closing : c = '\x7d'
    · subst closing
      obtain ⟨depth', rfl⟩ := Nat.exists_eq_succ_of_ne_zero fun zero => goesOn ⟨rfl, zero⟩
      exact ⟨_, .closes depth'⟩
    · exact ⟨_, .stays depth opening closing⟩

theorem Moves.count (moves : Moves c depth depth') (front : List Char) :
    (c :: front).count '\x7b' + depth + front.count '\x7d' =
      (c :: front).count '\x7d' + depth' + front.count '\x7b' := by
  cases moves with
  | opens =>
    rw [List.count_cons_self, List.count_cons_of_ne (by decide)]
    omega
  | closes =>
    rw [List.count_cons_self, List.count_cons_of_ne (by decide)]
    omega
  | stays _ noOpening noClosing =>
    rw [List.count_cons_of_ne noOpening, List.count_cons_of_ne noClosing]
    omega

theorem nested_nil : Nested depth [] := by
  intro front within
  rw [List.prefix_nil.1 within]
  exact Nat.zero_le _

theorem nested_cons {cs : List Char} (moves : Moves c depth depth') :
    Nested depth (c :: cs) ↔ Nested depth' cs := by
  constructor
  · intro nested front within
    have outer := nested (c :: front) (List.cons_prefix_cons.2 ⟨rfl, within⟩)
    have part := moves.count front
    omega
  · intro nested front within
    rcases List.prefix_cons_iff.1 within with rfl | ⟨front, rfl, inside⟩
    · exact Nat.zero_le _
    · have inner := nested front inside
      have part := moves.count front
      omega

theorem not_nested_close (cs : List Char) : ¬ Nested 0 ('\x7d' :: cs) := by
  intro nested
  exact absurd (nested ['\x7d'] (List.prefix_append _ cs)) (by decide)

theorem balanced_nil : Balanced depth [] ↔ depth = 0 := by
  constructor
  · rintro ⟨closed, -⟩
    simpa using closed
  · rintro rfl
    exact ⟨rfl, nested_nil⟩

theorem balanced_cons {body : List Char} (moves : Moves c depth depth') :
    Balanced depth (c :: body) ↔ Balanced depth' body := by
  have whole := moves.count body
  constructor
  · rintro ⟨closed, nested⟩
    exact ⟨by omega, (nested_cons moves).1 nested⟩
  · rintro ⟨closed, nested⟩
    exact ⟨by omega, (nested_cons moves).2 nested⟩

theorem closing?_cons (rest : List Char) (moves : Moves c depth depth') :
    closing? depth (c :: rest) =
      (closing? depth' rest).map fun (body, after) => (c :: body, after) := by
  cases moves with
  | opens => rfl
  | closes => rfl
  | stays _ noOpening noClosing =>
    rw [closing?.eq_def]
    dsimp only
    rw [if_neg noOpening, if_neg noClosing]

/-- A body ends at the first brace that closes more than was opened. -/
theorem closing?_eq_some {cs body after : List Char} :
    closing? depth cs = some (body, after) ↔
      cs = body ++ '\x7d' :: after ∧ Balanced depth body := by
  induction cs generalizing depth body with
  | nil => simp [closing?]
  | cons c rest ih =>
    by_cases last : c = '\x7d' ∧ depth = 0
    · obtain ⟨rfl, rfl⟩ := last
      cases body with
      | nil => simp [closing?, balanced_nil]
      | cons d body =>
        constructor
        · intro found
          cases found
        · rintro ⟨same, balanced⟩
          obtain ⟨rfl, -⟩ := List.cons.inj same
          exact absurd balanced.nested (not_nested_close body)
    · obtain ⟨depth', moves⟩ := exists_moves last
      rw [closing?_cons rest moves, Option.map_eq_some_iff]
      constructor
      · rintro ⟨⟨inner, after⟩, found, ⟨⟩⟩
        obtain ⟨rfl, balanced⟩ := ih.1 found
        exact ⟨rfl, (balanced_cons moves).2 balanced⟩
      · rintro ⟨same, balanced⟩
        cases body with
        | nil =>
          obtain ⟨rfl, rfl⟩ := List.cons.inj same
          exact absurd ⟨rfl, balanced_nil.1 balanced⟩ last
        | cons d body =>
          obtain ⟨rfl, rfl⟩ := List.cons.inj same
          exact ⟨(body, after), ih.2 ⟨rfl, (balanced_cons moves).1 balanced⟩, rfl⟩

/-- A body never ends if nothing closes more than was opened. -/
theorem closing?_eq_none {cs : List Char} : closing? depth cs = none ↔ Nested depth cs := by
  induction cs generalizing depth with
  | nil => exact ⟨fun _ => nested_nil, fun _ => rfl⟩
  | cons c rest ih =>
    by_cases last : c = '\x7d' ∧ depth = 0
    · obtain ⟨rfl, rfl⟩ := last
      exact ⟨nofun, fun nested => absurd nested (not_nested_close rest)⟩
    · obtain ⟨depth', moves⟩ := exists_moves last
      rw [closing?_cons rest moves, Option.map_eq_none_iff, ih, nested_cons moves]

end Schema

end EntityGraph
