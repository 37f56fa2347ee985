import EntityGraph.Proofs.Braces
import EntityGraph.Proofs.Classification
import EntityGraph.Proofs.Pieces
import EntityGraph.Proofs.Taxonomy
import EntityGraph.Proofs.ValueLists
import Mathlib.Data.List.Nodup
import Mathlib.Data.String.Basic

/-!
Enumerations as they are written: the values of a block may stand on any of its lines, in any
company of commas, blanks, empty lines and comments. What is read are the values in order. A block
without values is refused, and so is one that repeats some, whichever lines they stand on.
-/
namespace EntityGraph

open Results

namespace Schema

/-! ## Lines of values -/

/-- A value that can be written in a block: it has no brace in it and no mark of a comment. -/
structure Listable (v : String) : Prop where
  value : IsValue v.toList
  plain : ∀ c ∈ v.toList, isBrace c = false ∧ c ≠ '#'

theorem listable_iff {v : String} : Listable v ↔
    v ≠ "" ∧ v.toList.all (fun c => !isSeparator c && !isBrace c && c != '#') = true := by
  simp only [List.all_eq_true, Bool.and_eq_true, Bool.not_eq_true', bne_iff_ne]
  constructor
  · rintro ⟨⟨filled, solid⟩, plain⟩
    exact ⟨fun empty => filled (by simp [empty]), fun c member =>
      ⟨⟨solid c member, (plain c member).1⟩, (plain c member).2⟩⟩
  · rintro ⟨filled, plain⟩
    exact ⟨⟨by simpa using filled, fun c member => (plain c member).1.1⟩,
      fun c member => ⟨(plain c member).1.2, (plain c member).2⟩⟩

instance (v : String) : Decidable (Listable v) :=
  decidable_of_iff _ listable_iff.symm

/-- Lines over which values are spread, with comments between them. A line without values is
    blank but for commas. -/
inductive LaidOut : List String → List (List Char) → Prop
  | nil : LaidOut [] []
  | comment {values : List String} {line : List Char} {lines : List (List Char)}
      (mark : (Text.trimChars line).head? = some '#') (braceless : ∀ c ∈ line, isBrace c = false)
      (below : LaidOut values lines) : LaidOut values (line :: lines)
  | values {here values : List String} {line : List Char} {lines : List (List Char)}
      (listable : ∀ v ∈ here, Listable v) (separated : Separated (here.map String.toList) line)
      (below : LaidOut values lines) : LaidOut (here ++ values) (line :: lines)

theorem braceless_of_separated {here : List String} {line : List Char}
    (listable : ∀ v ∈ here, Listable v) (separated : Separated (here.map String.toList) line) :
    ∀ c ∈ line, isBrace c = false ∧ c ≠ '#' := by
  intro c member
  rcases separated.mem member with separator | ⟨_, among, inside⟩
  · constructor
    · by_contra brace
      simp only [isBrace, Bool.not_eq_false, Bool.or_eq_true, beq_iff_eq] at brace
      rcases brace with rfl | rfl <;> exact absurd separator (by decide)
    · rintro rfl
      exact absurd separator (by decide)
  · obtain ⟨v, known, rfl⟩ := List.mem_map.1 among
    exact (listable v known).plain c inside

theorem LaidOut.braceless {values : List String} {lines : List (List Char)}
    (laid : LaidOut values lines) : ∀ line ∈ lines, ∀ c ∈ line, isBrace c = false := by
  induction laid with
  | nil => nofun
  | comment mark braceless _ ih => exact List.forall_mem_cons.2 ⟨braceless, ih⟩
  | values listable separated _ ih =>
    exact List.forall_mem_cons.2
      ⟨fun c member => (braceless_of_separated listable separated c member).1, ih⟩

/-- The values that a line of a body lists. -/
private theorem valuesOf_said (n : Nat) (line : List Char) :
    (said (n, String.ofList line)).flatMap (fun line => valuesOf line.2) =
      if Idle (String.ofList line) then [] else (splitValues line).map String.ofList := by
  rw [said]
  split
  · rfl
  · simp [valuesOf, Text.trim, splitValues_trimChars]

theorem LaidOut.values_eq {values : List String} {lines : List (List Char)}
    (laid : LaidOut values lines) (n : Nat) :
    (numbered n lines).flatMap (fun line => (said line).flatMap fun line => valuesOf line.2) =
      values := by
  induction laid generalizing n with
  | nil => rfl
  | @comment values line lines mark _ _ ih =>
    have idle : Idle (String.ofList line) := .inr (by simpa [Text.trim] using mark)
    rw [numbered, List.flatMap_cons, valuesOf_said, if_pos idle, ih, List.nil_append]
  | @values here values line lines listable separated _ ih =>
    have read : (splitValues line).map String.ofList = here := by
      simp [separated.splitValues, Function.comp_def]
    rw [numbered, List.flatMap_cons, valuesOf_said, ih, read]
    split
    · rename_i idle
      -- A line with values is no comment, so an idle one is blank.
      have blank : Text.trimChars line = [] := by
        rcases idle with blank | mark
        · simpa [Text.trim] using congrArg String.toList blank
        · rw [Text.trim, String.toList_ofList, String.toList_ofList] at mark
          have inside := mem_stripChars (List.mem_of_mem_head? mark)
          exact absurd rfl (braceless_of_separated listable separated '#' inside).2
      rw [← splitValues_trimChars, blank] at read
      rw [← read]
      rfl
    · rfl

/-! ## Refusals -/

theorem mem_repeatedTexts {xs : List String} {v : String} :
    v ∈ Record.repeatedTexts xs ↔ 2 ≤ xs.count v := by
  simp only [Record.repeatedTexts, List.mem_mergeSort, List.mem_eraseDups, List.mem_filter,
    decide_eq_true_eq]
  refine ⟨And.right, fun twice => ⟨?_, twice⟩⟩
  exact List.count_pos_iff.1 (by omega)

private theorem nodup_eraseDups (xs : List String) : xs.eraseDups.Nodup := by
  match xs with
  | [] => simp
  | x :: rest =>
    rw [List.eraseDups_cons, List.nodup_cons]
    exact ⟨by simp [List.mem_eraseDups], nodup_eraseDups (rest.filter fun y => !y == x)⟩
termination_by xs.length
decreasing_by
  have shorter := List.length_filter_le (fun y => !y == x) rest
  simp only [List.length_cons]
  omega

theorem pairwise_repeatedTexts (xs : List String) :
    (Record.repeatedTexts xs).Pairwise (· < ·) := by
  have sorted : (Record.repeatedTexts xs).Pairwise fun a b => (!decide (b < a)) = true := by
    refine List.pairwise_mergeSort (fun a b c first second => ?_) (fun a b => ?_) _
    · simp only [Bool.not_eq_true', decide_eq_false_iff_not, not_lt] at first second ⊢
      exact first.trans second
    · simp only [Bool.or_eq_true, Bool.not_eq_true', decide_eq_false_iff_not, not_lt]
      exact le_total a b
  have distinct : (Record.repeatedTexts xs).Nodup :=
    (List.mergeSort_perm _ _).nodup_iff.2 (nodup_eraseDups _)
  refine (sorted.and distinct).imp fun ⟨below, apart⟩ => ?_
  simp only [Bool.not_eq_true', decide_eq_false_iff_not, not_lt] at below
  exact lt_of_le_of_ne below apart

theorem repeatedTexts_eq_nil {xs : List String} : Record.repeatedTexts xs = [] ↔ xs.Nodup := by
  rw [List.eq_nil_iff_forall_not_mem, List.nodup_iff_count_le_one]
  simp only [mem_repeatedTexts]
  exact forall_congr' fun v => by omega

private theorem within_of_bounds {bounds : List Nat} {m n : Nat} (below : ∀ b ∈ bounds, b ≤ m)
    (later : m ≤ n) : Text.within bounds n = Text.within bounds m := by
  have same : ∀ inside, bounds.foldl (fun inside b => if b ≤ n then !inside else inside) inside =
      bounds.foldl (fun inside b => if b ≤ m then !inside else inside) inside := by
    induction bounds with
    | nil => exact fun _ => rfl
    | cons b rest ih =>
      obtain ⟨first, others⟩ := List.forall_mem_cons.1 below
      intro inside
      rw [List.foldl_cons, List.foldl_cons, if_pos first, if_pos (first.trans later)]
      exact ih others _
  exact same false

/-- The last word character is far below the characters that stand for halves of pairs. -/
theorem hasHalf_of_word {name : String} (word : IsWord name) : Text.hasHalf name = false := by
  obtain ⟨cs, rfl, -, chars⟩ := word
  rw [Text.hasHalf, String.toList_ofList, List.any_eq_false]
  intro c member half
  have above : 0x3134b ≤ c.toNat := by
    unfold Text.half? at half
    dsimp only at half
    split at half
    · rename_i inside
      have far := of_decide_eq_true (Bool.and_eq_true_iff.1 inside).1
      rw [Text.halfDistance] at far
      omega
    · cases half
  have outside : Text.within Text.wordBounds c.toNat = false :=
    (within_of_bounds (by decide +kernel) above).trans (by decide +kernel)
  have word := chars c member
  rw [Text.isWordChar, if_neg (by omega), outside] at word
  cases word

/-- The refusal of a block because of its values. -/
def refusal (name : String) (kind : Record.FaultKind) : SchemaFault :=
  .enumInvalid name ⟨"EnumDefinition", [⟨[.name "values"], kind⟩]⟩

/-- A block is an enumeration of its values unless there are none or some are repeated. -/
theorem enumOf_eq {b : Block} (word : IsWord b.name) :
    enumOf b =
      if enumValues b = [] then .error (refusal b.name .listTooShort)
      else if (enumValues b).Nodup then .ok ⟨b.name, enumValues b⟩
      else .error (refusal b.name (.repeated (Record.repeatedTexts (enumValues b)))) := by
  have filled : Record.acceptFilledText (.text b.name) = .ok b.name := by
    simp [Record.acceptFilledText, Record.wholeCharacters, hasHalf_of_word word, word.ne_empty,
      ok_bind]
  have listed : Record.acceptEnumValues (.ofTexts (enumValues b)) =
      if enumValues b = [] then Record.refuse .listTooShort
      else if (enumValues b).Nodup then .ok (enumValues b)
      else Record.refuse (.repeated (Record.repeatedTexts (enumValues b))) := by
    rw [Record.acceptEnumValues, Record.acceptList_ofTexts, ok_bind]
    simp only [List.isEmpty_iff, ← repeatedTexts_eq_nil]
    split
    · rfl
    · split
      · rename_i none
        rw [if_pos none]
      · rename_i some
        rw [if_neg some]
  have read : Record.Part.readAttributes (Record.entries
      [("name", .text b.name), ("values", .ofTexts (enumValues b))]) Record.enumPart.attributes =
      (Record.under (.name "values") (Record.acceptEnumValues (.ofTexts (enumValues b)))).map
        fun values e => { e with name := b.name, values := values } := by
    have apart : ("values" == "name") = false := by decide
    simp only [Record.enumPart, Record.Part.readAttributes, Record.Part.readAttribute,
      Record.Attribute.mandatory, Record.find?_entries, List.lookup_cons, beq_self_eq_true, apart,
      filled]
    cases Record.acceptEnumValues (.ofTexts (enumValues b)) <;> rfl
  have known : Record.enumPart.unknown (Record.entries
      [("name", .text b.name), ("values", .ofTexts (enumValues b))]) = [] := by
    simp [Record.Part.unknown, Record.enumPart, Record.Attribute.mandatory, Record.entries,
      Value.toText]
  show ((Record.enumPart.readEntries (Record.entries
    [("name", .text b.name), ("values", .ofTexts (enumValues b))])).mapError _).mapError _ = _
  rw [Record.Part.readEntries, read, known, listed]
  by_cases none : enumValues b = []
  · rw [if_pos none, if_pos none]
    rfl
  · rw [if_neg none, if_neg none]
    by_cases distinct : (enumValues b).Nodup
    · rw [if_pos distinct, if_pos distinct]
      rfl
    · rw [if_neg distinct, if_neg distinct]
      rfl

/-! ## Texts of one block -/

private theorem piecesFrom_blank {cs : List Char} (blank : ∀ c ∈ cs, Text.isBlank c = true)
    (line : Nat) : piecesFrom line false cs = [] := by
  induction cs generalizing line with
  | nil => rw [piecesFrom]
  | cons c rest ih =>
    obtain ⟨first, others⟩ := List.forall_mem_cons.1 blank
    rw [piecesFrom]
    split
    · rw [piecesFrom_plain _ fun h headed => ?_]
      · exact ih others (line + 1)
      -- A heading has a keyword in it, which is not blank.
      · obtain ⟨indent, gap, rfl, -⟩ := headed
        have solid : ∃ c ∈ h.kind.keyword.toList, Text.isBlank c = false := by
          cases h.kind with
          | type => exact ⟨'t', by decide, by decide⟩
          | enum => exact ⟨'e', by decide, by decide⟩
        obtain ⟨c, inside, solid⟩ := solid
        have blank := others c (List.mem_append_right _ (List.mem_append_left _ inside))
        rw [solid] at blank
        cases blank
    · exact ih others line

theorem mem_linesOf {cs : List Char} {c : Char} (member : c ∈ cs) :
    c = '\n' ∨ ∃ line ∈ linesOf cs, c ∈ line := by
  induction cs with
  | nil => cases member
  | cons d rest ih =>
    rw [linesOf]
    by_cases ends : d = '\n'
    · rw [if_pos ends]
      rcases List.mem_cons.1 member with rfl | later
      · exact .inl ends
      · refine (ih later).imp_right ?_
        rintro ⟨line, among, inside⟩
        exact ⟨line, List.mem_cons_of_mem _ among, inside⟩
    · rw [if_neg ends]
      rcases List.mem_cons.1 member with rfl | later
      · cases linesOf rest <;> exact .inr ⟨_, List.mem_cons_self, List.mem_cons_self⟩
      · refine (ih later).imp_right ?_
        rintro ⟨line, among, inside⟩
        cases lines : linesOf rest with
        | nil =>
          rw [lines] at among
          cases among
        | cons first others =>
          rw [lines] at among
          rcases List.mem_cons.1 among with rfl | among
          · exact ⟨_, List.mem_cons_self, List.mem_cons_of_mem _ inside⟩
          · exact ⟨line, List.mem_cons_of_mem _ among, inside⟩

theorem balanced_of_lines {body : List Char}
    (braceless : ∀ line ∈ linesOf body, ∀ c ∈ line, isBrace c = false) : Balanced 0 body := by
  have none : body.filter isBrace = [] := by
    rw [List.filter_eq_nil_iff]
    intro c member
    rcases mem_linesOf member with rfl | ⟨line, among, inside⟩
    · decide
    · simp [braceless line among c inside]
  rw [← balanced_filter, none, balanced_nil]

/-- A text that is one block of an enumeration, with its values spread over the lines of the
    body. -/
def EnumText (name : String) (values : List String) (s : String) : Prop :=
  ∃ head directives body back, s.toList = head ++ '\x7b' :: (body ++ '\x7d' :: back) ∧
    Preface .enum name.toList directives head ∧ LaidOut values (linesOf body) ∧
    ∀ c ∈ back, Text.isBlank c = true

theorem EnumText.word {name s : String} {values : List String} (text : EnumText name values s) :
    IsWord name := by
  obtain ⟨head, directives, body, back, -, preface, -⟩ := text
  obtain ⟨⟨gap, ⟨indent, wide, -, -, -, -, named, word, -⟩, -⟩, -⟩ := preface
  exact ⟨name.toList, String.ofList_toList.symm, named, word⟩

theorem EnumText.pieces {name s : String} {values : List String} (text : EnumText name values s) :
    ∃ b, Schema.pieces s = [.block b] ∧ b.kind = .enum ∧ b.name = name ∧ enumValues b = values := by
  obtain ⟨head, directives, body, back, whole, preface, laid, blank⟩ := text
  refine ⟨⟨.enum, String.ofList name.toList, directivesOf directives,
    numbered (1 + head.count '\n') (linesOf body)⟩, ?_, rfl, String.ofList_toList, ?_⟩
  · rw [Schema.pieces, whole, piecesFrom_block 1 preface (balanced_of_lines laid.braceless),
      piecesFrom_blank blank]
  · rw [enumValues, contentLines_eq, List.flatMap_assoc]
    exact laid.values_eq _

/-- What is read from the text of an enumeration is the enumeration, if the block has one. -/
theorem read_of_enum {dialect : Dialect} {s : String} {b : Block}
    (alone : Schema.pieces s = [.block b]) (enum : b.kind = .enum) :
    read dialect s = (enumOf b).map fun e => (⟨{}, [], [e]⟩, []) := by
  have config : b.isConfig = false := by simp [Block.isConfig, enum]
  have kind : b.isEnum = true := by simp [Block.isEnum, enum]
  have entity : b.isEntity = false := by simp [Block.isEntity, enum]
  have blocks : (Schema.pieces s).filterMap Piece.block? = [b] := by rw [alone]; rfl
  have enums : enumsOf [b] = (enumOf b).map fun e => [e] := by
    rw [enumsOf, List.filter_cons_of_pos kind]
    simp only [List.filter_nil, enumsFrom, List.contains_nil, Bool.false_eq_true, if_false]
    cases enumOf b <;> rfl
  rw [read, blocks, contentsOf, appOf, List.filter_cons_of_neg (by simp [config]), enums,
    List.filter_cons_of_neg (by simp [entity]), alone]
  cases enumOf b <;> rfl

/-- An enumeration is read as it is written, however its values are spread over the lines. Without
    values, or with some of them twice, on one line or on several, it is refused, and the refusal
    names the values that occur more than once, in order. -/
theorem read_enumText {dialect : Dialect} {name s : String} {values : List String}
    (text : EnumText name values s) :
    (values ≠ [] → values.Nodup → read dialect s = .ok (⟨{}, [], [⟨name, values⟩]⟩, [])) ∧
      (values = [] → ∃ f, read dialect s = .error f ∧ Failure.ofSchema f =
        .parseInvalid ("Invalid enum '" ++ name ++ "'") {}
          ⟨"EnumDefinition", [⟨[.name "values"], .listTooShort⟩]⟩) ∧
      (¬ values.Nodup → ∃ f repeated, read dialect s = .error f ∧ Failure.ofSchema f =
          .parseInvalid ("Invalid enum '" ++ name ++ "'") {}
            ⟨"EnumDefinition", [⟨[.name "values"], .repeated repeated⟩]⟩ ∧
        repeated.Pairwise (· < ·) ∧ ∀ v, v ∈ repeated ↔ 2 ≤ values.count v) := by
  obtain ⟨b, alone, kind, rfl, rfl⟩ := text.pieces
  rw [read_of_enum alone kind, enumOf_eq text.word]
  refine ⟨fun filled distinct => ?_, fun empty => ?_, fun repeating => ?_⟩
  · rw [if_neg filled, if_pos distinct]
    rfl
  · rw [if_pos empty]
    exact ⟨_, rfl, rfl⟩
  · have filled : enumValues b ≠ [] := by
      intro empty
      rw [empty] at repeating
      exact repeating List.nodup_nil
    rw [if_neg filled, if_neg repeating]
    exact ⟨_, _, rfl, rfl, pairwise_repeatedTexts _, fun v => mem_repeatedTexts⟩

/-- An enumeration on several lines, with a comment and more commas than it needs. -/
def sizes : String :=
  "enum Size \x7bS,, M\n\n  # not \"S\"\n ,L \x7d\n"

/-- The same with values that are listed twice, one of them on the same line. -/
def sizesAgain : String :=
  "enum Size \x7bS M, M\n  # not \"S\"\n ,S \x7d\n"

private theorem sizePreface : Preface .enum "Size".toList [] "enum Size ".toList :=
  @preface_of_name "Size".toList [] .enum [' '] (by decide) (List.all_eq_true.1 (by decide))
    (by simp) (by simp) (List.all_eq_true.1 (by decide)) (by simp; decide)

theorem read_enumText_sizes :
    EnumText "Size" ["S", "M", "L"] sizes ∧
      read {} sizes = .ok (⟨{}, [], [⟨"Size", ["S", "M", "L"]⟩]⟩, []) ∧
      EnumText "Size" ["S", "M", "M", "S"] sizesAgain ∧
      ∃ f repeated, read {} sizesAgain = .error f ∧ Failure.ofSchema f =
          .parseInvalid "Invalid enum 'Size'" {}
            ⟨"EnumDefinition", [⟨[.name "values"], .repeated repeated⟩]⟩ ∧
        repeated.Pairwise (· < ·) ∧ ∀ v, v ∈ repeated ↔ 2 ≤ ["S", "M", "M", "S"].count v := by
  have once : EnumText "Size" ["S", "M", "L"] sizes := by
    refine ⟨"enum Size ".toList, [], "S,, M\n\n  # not \"S\"\n ,L ".toList, ['\n'], by decide,
      sizePreface, ?_, List.all_eq_true.1 (by decide)⟩
    show LaidOut (["S", "M"] ++ ([] ++ (["L"] ++ [])))
      ["S,, M".toList, [], "  # not \"S\"".toList, " ,L ".toList]
    refine .values (by decide) (splitValues_eq_iff.1 (by decide)) ?_
    refine .values (by decide) (splitValues_eq_iff.1 (by decide)) ?_
    refine .comment (by decide) (by simp [isBrace]) ?_
    exact .values (by decide) (splitValues_eq_iff.1 (by decide)) .nil
  have again : EnumText "Size" ["S", "M", "M", "S"] sizesAgain := by
    refine ⟨"enum Size ".toList, [], "S M, M\n  # not \"S\"\n ,S ".toList, ['\n'], by decide,
      sizePreface, ?_, List.all_eq_true.1 (by decide)⟩
    show LaidOut (["S", "M", "M"] ++ (["S"] ++ []))
      ["S M, M".toList, "  # not \"S\"".toList, " ,S ".toList]
    refine .values (by decide) (splitValues_eq_iff.1 (by decide)) ?_
    refine .comment (by decide) (by simp [isBrace]) ?_
    exact .values (by decide) (splitValues_eq_iff.1 (by decide)) .nil
  exact ⟨once, (read_enumText once).1 (by decide) (by decide), again,
    (read_enumText again).2.2 (by decide)⟩

end Schema

end EntityGraph
