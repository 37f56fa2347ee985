import EntityGraph.Proofs.Braces
import EntityGraph.Proofs.Declared
import EntityGraph.Proofs.Pieces

/-!
Reading on behind a block that is never closed. Such a block takes nothing of what follows along:
the text behind it is read as it would be alone, but for the numbers of its lines.
-/
namespace EntityGraph.Schema

/-! ## Warnings further down -/

/-- A warning about something that stands some lines further down. -/
def Warning.later (k : Nat) : Warning → Warning
  | .unclosed kind name line => .unclosed kind name (line + k)
  | .headless kind name line => .headless kind name (line + k)
  | .unknownTarget entity relation line target => .unknownTarget entity relation (line + k) target

theorem pieceWarnings_later (k : Nat) (ps : List Piece) :
    pieceWarnings (ps.map (Piece.later k)) = (pieceWarnings ps).map (Warning.later k) := by
  simp only [pieceWarnings, List.map_append, List.filterMap_map, List.map_filterMap]
  congr 1
  · apply List.filterMap_congr
    intro p _
    cases p <;> rfl
  · apply List.filterMap_congr
    intro p _
    cases p <;> rfl

theorem blocks_later (k : Nat) (ps : List Piece) :
    (ps.map (Piece.later k)).filterMap Piece.block? =
      (ps.filterMap Piece.block?).map (Block.later k) := by
  rw [List.filterMap_map, List.map_filterMap]
  apply List.filterMap_congr
  intro p _
  cases p <;> rfl

/-! ## Lines without headings and braces -/

/-- Lines one below the other. -/
def lined (lines : List String) : String :=
  String.join (lines.map (· ++ "\n"))

/-- A line that has no brace and that no heading begins. -/
structure Silent (line : String) : Prop where
  oneLine : '\n' ∉ line.toList
  braceless : ∀ c ∈ line.toList, isBrace c = false
  headless : ∀ h, ¬ Headed h line.toList

theorem toList_lined_cons (line : String) (lines : List String) :
    (lined (line :: lines)).toList = line.toList ++ '\n' :: (lined lines).toList := by
  simp [lined, String.toList_join]

theorem piecesFrom_lined (n : Nat) {lines : List String} (silent : ∀ line ∈ lines, Silent line)
    (cs : List Char) :
    piecesFrom n true ((lined lines).toList ++ cs) = piecesFrom (n + lines.length) true cs := by
  induction lines generalizing n with
  | nil => rfl
  | cons line rest ih =>
    obtain ⟨first, others⟩ := List.forall_mem_cons.1 silent
    rw [toList_lined_cons, List.append_assoc, List.cons_append,
      piecesFrom_line n _ first.oneLine first.headless, ih (n + 1) others, List.length_cons]
    congr 1
    omega

theorem count_lined {lines : List String} (silent : ∀ line ∈ lines, Silent line) :
    (lined lines).toList.count '\n' = lines.length := by
  induction lines with
  | nil => rfl
  | cons line rest ih =>
    obtain ⟨first, others⟩ := List.forall_mem_cons.1 silent
    rw [toList_lined_cons, List.count_append, List.count_cons_self, ih others,
      List.count_eq_zero.2 first.oneLine, List.length_cons, Nat.zero_add]

theorem braceless_lined {lines : List String} (silent : ∀ line ∈ lines, Silent line) :
    ∀ c ∈ (lined lines).toList, isBrace c = false := by
  induction lines with
  | nil => simp [lined]
  | cons line rest ih =>
    obtain ⟨first, others⟩ := List.forall_mem_cons.1 silent
    rw [toList_lined_cons]
    simp only [List.mem_append, List.mem_cons]
    rintro c (inside | rfl | inside)
    · exact first.braceless c inside
    · rfl
    · exact ih others c inside

/-! ## Blocks that are never closed -/

/-- The first line of a block, with its brace and nothing behind it. -/
def firstLine (kind : BlockKind) (name : String) : String :=
  kind.keyword ++ " " ++ name ++ " \x7b\n"

theorem exists_preface (kind : BlockKind) {name : String} (word : IsWord name) :
    ∃ head, (firstLine kind name).toList = head ++ ['\x7b', '\n'] ∧ '\n' ∉ head ∧
      Preface kind name.toList [] head := by
  obtain ⟨cs, rfl, named, chars⟩ := word
  refine ⟨kind.keyword.toList ++ ' ' :: (cs ++ [' ']), by simp [firstLine], ?_, ?_⟩
  · simp only [List.mem_append, List.mem_cons, not_or]
    refine ⟨by cases kind <;> decide, by decide, fun inside => ?_, by decide, nofun⟩
    cases Text.notBlank_of_isWordChar (chars _ inside)
  · rw [String.toList_ofList]
    apply preface_of_name kind named chars
    · nofun
    · nofun
    · simp [Text.isBlank]
    · rintro c ⟨⟩
      decide

theorem pieces_unclosed (kind : BlockKind) {name : String} (word : IsWord name)
    {lines : List String} (silent : ∀ line ∈ lines, Silent line) {text : String}
    (nested : Nested 0 text.toList) :
    pieces (firstLine kind name ++ lined lines ++ text) =
      .unclosed kind name 1 :: (pieces text).map (Piece.later (lines.length + 1)) := by
  obtain ⟨head, first, oneLine, preface⟩ := exists_preface kind word
  have whole : (firstLine kind name ++ lined lines ++ text).toList =
      head ++ '\x7b' :: ('\n' :: ((lined lines).toList ++ text.toList)) := by
    simp [first]
  have inner : Nested 0 ('\n' :: ((lined lines).toList ++ text.toList)) := by
    rw [nested_cons (.stays 0 (by decide) (by decide)),
      nested_append_of_plain (braceless_lined silent)]
    exact nested
  rw [pieces, whole, piecesFrom_unclosed 1 preface inner, List.count_eq_zero.2 oneLine,
    piecesFrom_newline, piecesFrom_lined _ silent, String.ofList_toList, pieces,
    ← piecesFrom_later]
  congr 2
  omega

/-- Behind a block that is never closed a text has the blocks and the warnings that it has alone, on
    lines further down, unless it closes braces that it does not open. -/
theorem blocks_recovered (kind : BlockKind) {name : String} {lines : List String} {text : String}
    (word : IsWord name) (silent : ∀ line ∈ lines, Silent line) (nested : Nested 0 text.toList) :
    let broken := firstLine kind name ++ lined lines
    let k := broken.toList.count '\n'
    blocks (broken ++ text) = (blocks text).map (Block.later k) ∧
      pieceWarnings (pieces (broken ++ text)) =
        .unclosed kind name 1 :: (pieceWarnings (pieces text)).map (Warning.later k) := by
  intro broken k
  have number : k = lines.length + 1 := by
    obtain ⟨head, first, oneLine, -⟩ := exists_preface kind word
    have split : broken.toList = head ++ (['\x7b', '\n'] ++ (lined lines).toList) := by
      simp [broken, first]
    simp only [k, split, List.count_append, List.count_eq_zero.2 oneLine, count_lined silent]
    rw [Nat.zero_add, Nat.add_comm]
    rfl
  have split := pieces_unclosed kind word silent nested
  rw [← number] at split
  rw [blocks, split]
  refine ⟨blocks_later k (pieces text), ?_⟩
  rw [← pieceWarnings_later]
  rfl

/-- A text with a block, a header that has no body and another block that is never closed. -/
def remainder : String :=
  "type Post \x7b\n  id: ID\n\x7d\ntype Draft\nenum State \x7b\n"

theorem blocks_recovered_post :
    IsWord "Broken" ∧ (∀ line ∈ ["  id: ID", "", "# type"], Silent line) ∧
      Nested 0 remainder.toList ∧
      blocks (firstLine .type "Broken" ++ lined ["  id: ID", "", "# type"] ++ remainder) =
        [⟨.type, "Post", [], [(5, ""), (6, "  id: ID"), (7, "")]⟩] ∧
      pieceWarnings
          (pieces (firstLine .type "Broken" ++ lined ["  id: ID", "", "# type"] ++ remainder)) =
        [.unclosed .type "Broken" 1, .unclosed .enum "State" 9, .headless .type "Draft" 8] := by
  have word : IsWord "Broken" := ⟨"Broken".toList, by decide, by decide, List.all_eq_true.1 (by decide)⟩
  have silent : ∀ line ∈ ["  id: ID", "", "# type"], Silent line := by
    intro line member
    simp only [List.mem_cons, List.not_mem_nil, or_false] at member
    rcases member with rfl | rfl | rfl
    all_goals exact ⟨by decide, by simp [isBrace], heading?_eq_none.1 (by decide)⟩
  have nested : Nested 0 remainder.toList := closing?_eq_none.1 (by decide)
  obtain ⟨found, told⟩ := blocks_recovered .type word silent nested
  have alone : pieces remainder = [.block ⟨.type, "Post", [], [(1, ""), (2, "  id: ID"), (3, "")]⟩,
      .headless .type "Draft" 4, .unclosed .enum "State" 5] := by decide +kernel
  refine ⟨word, silent, nested, ?_, ?_⟩
  · rw [found, blocks, alone]
    decide
  · rw [told, alone]
    decide

end EntityGraph.Schema
