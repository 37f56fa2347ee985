import EntityGraph.Graph.Entity
import EntityGraph.Proofs.PluralCuts

/-!
Names of tables. The table of an entity is named by the plural of the entity's name in snake case.
This is the plural of the snake case exactly if making the plural leaves the cut of the name as it
is: the last word has a plural of its own, or it stays, or something of it stays that does not end
in capitals. Otherwise the table gets a name that no other convention gives: `ap_is` for `API`,
while the columns that refer to it are named after `api`.
-/
namespace EntityGraph

namespace Name

/-- Whether the plural of a name is cut like the name: either the last word has a plural of its own
    or is one already, or what stays of it does not end in capitals and is not empty, unless that
    word is all of the name. -/
def KeepsCut (name : List Char) : Prop :=
  irregularPlural? (lower (lastWord name)) ≠ none ∨ ending (lastWord name) = [] ∨
    endsInCapitals (stem (lastWord name)) = false ∧
      (stem (lastWord name) = [] → lastWord name = name)

instance (name : List Char) : Decidable (KeepsCut name) :=
  inferInstanceAs (Decidable (_ ∨ _ ∨ _ ∧ (_ → _)))

variable {front word : List Char}

/-- Snake case tells which words it is made of. -/
theorem snakeChars_eq_iff {cs : List Char} {ws : List (List Char)}
    (words : ∀ w ∈ ws, w ≠ [] ∧ Small w) :
    snakeChars cs = join ['_'] ws ↔ (segments caseTurn cs).map lower = ws := by
  constructor
  · intro same
    have cut := congrArg (segments caseTurn) same
    rwa [snakeChars, segments_join_small (by decide) fun _ => small_of_segments,
      segments_join_small (by decide) words] at cut
  · rintro rfl
    rfl

/-- In snake case, the last word is in front of nothing and behind a separator. -/
theorem LastWord.pluralChars_snakeChars (last : LastWord front word) :
    pluralChars (snakeChars (front ++ word)) =
      join ['_'] ((segments caseTurn front ++ [pluralWord word]).map lower) := by
  have split : snakeChars (front ++ word) =
      (((segments caseTurn front).map lower).map (· ++ ['_'])).flatten ++ lower word := by
    rw [snakeChars, last.segments_eq, List.map_append, List.map_singleton, join_concat]
  have last' : LastWord (((segments caseTurn front).map lower).map (· ++ ['_'])).flatten
      (lower word) := by
    refine ⟨⟨[], lower word, ⟨by simp [Capital], small_lower last.parts, by simp⟩, rfl⟩,
      by simpa [lower] using last.filled, fun a at_end part => ?_⟩
    rcases List.eq_nil_or_concat ((segments caseTurn front).map lower) with none | ⟨ws, w, some⟩
    · simp [none] at at_end
    · rw [some] at at_end
      obtain rfl : '_' = a := by simpa using at_end
      cases part
  rw [split, last'.plural_eq, pluralWord_lower, List.map_append, List.map_singleton, join_concat]

/-- The words of a name with the last one in the plural. -/
private theorem small_of_pluralized (last : LastWord front word) :
    ∀ w ∈ (segments caseTurn front ++ [pluralWord word]).map lower, w ≠ [] ∧ Small w := by
  rw [List.map_append, List.forall_mem_append]
  refine ⟨fun _ => small_of_segments, ?_⟩
  simpa [lower] using
    ⟨pluralWord_ne_nil word, small_lower (isPart_pluralWord last.parts)⟩

/-- The plural of the snake case, by its words. -/
theorem LastWord.snake_plural_iff (last : LastWord front word) :
    snakeChars (pluralChars (front ++ word)) = pluralChars (snakeChars (front ++ word)) ↔
      (segments caseTurn (front ++ pluralWord word)).map lower =
        (segments caseTurn front ++ [pluralWord word]).map lower := by
  rw [last.plural_eq, last.pluralChars_snakeChars, snakeChars_eq_iff (small_of_pluralized last)]

/-- A part of the last word stays: the words stay unless it ends in capitals. -/
private theorem cut_iff_of_stem (last : LastWord front word)
    (regular : irregularPlural? (lower word) = none) (changed : ending word ≠ [])
    (kept : stem word ≠ []) :
    (segments caseTurn (front ++ pluralWord word)).map lower =
        (segments caseTurn front ++ [pluralWord word]).map lower ↔
      endsInCapitals (stem word) = false := by
  rw [pluralWord_regular regular]
  cases ends : endsInCapitals (stem word) with
  | false => simp [(last.append_stem changed kept ends).segments_eq]
  | true =>
    obtain ⟨capitals, u, split, first, second⟩ := last.append_acronym_ending changed ends
    have cut : segments caseTurn (front ++ (stem word ++ ending word)) =
        segments caseTurn front ++ [capitals, u :: ending word] := by
      rw [split, List.append_assoc, ← List.append_assoc front, List.singleton_append,
        second.segments_eq, first.segments_eq, List.append_assoc, List.singleton_append]
    rw [cut]
    refine iff_of_false (fun same => ?_) (by simp)
    simpa using congrArg List.length same

/-- Nothing of the last word stays: the ending goes to the word in front of it, if there is one. -/
private theorem cut_iff_of_ending (parts : ∀ c ∈ front, isPart c = true)
    (regular : irregularPlural? (lower word) = none) (changed : ending word ≠ [])
    (none : stem word = []) :
    (segments caseTurn (front ++ pluralWord word)).map lower =
        (segments caseTurn front ++ [pluralWord word]).map lower ↔ front = [] := by
  have are : Small (ending word) := small_of_isLower isLower_of_ending
  rw [pluralWord_regular regular, none, List.nil_append]
  constructor
  · intro same
    by_contra filled
    obtain ⟨front', word', split, last'⟩ := exists_lastWord_of_parts
      (List.append_ne_nil_of_right_ne_nil front changed)
      (List.forall_mem_append.2 ⟨parts, fun c mem => (are c mem).1⟩)
    obtain ⟨z, rfl, -, more⟩ := last'.of_append_small are changed split
    have longer := more _ (List.getLast?_eq_some_getLast filled) (parts _ (List.getLast_mem filled))
    rw [split, last'.segments_eq, List.map_append, List.map_append] at same
    have length := congrArg List.length (List.singleton_inj.1 (List.append_inj' same rfl).2)
    simp only [length_lower, List.length_append, Nat.add_eq_right] at length
    exact longer (List.length_eq_zero_iff.1 length)
  · rintro rfl
    rw [List.nil_append, segments_small are changed]
    rfl

/-- Plural and snake case can be exchanged exactly if the plural is cut like the name. -/
theorem snakeChars_pluralChars_iff {cs : List Char} (parts : ∀ c ∈ cs, isPart c = true) :
    snakeChars (pluralChars cs) = pluralChars (snakeChars cs) ↔ KeepsCut cs := by
  by_cases filled : cs = []
  · subst filled
    decide +kernel
  obtain ⟨front, word, rfl, last⟩ := exists_lastWord_of_parts filled parts
  have parts := (List.forall_mem_append.1 parts).1
  rw [last.snake_plural_iff, KeepsCut, last.lastWord_eq]
  cases found : irregularPlural? (lower word) with
  | some plural =>
    refine iff_of_true ?_ (.inl (by simp))
    rw [(last.irregular found).segments_eq]
  | none =>
    simp only [ne_eq, not_true_eq_false, false_or]
    by_cases nothing : ending word = []
    · refine iff_of_true ?_ (.inl nothing)
      rw [pluralWord_eq_self found nothing, last.segments_eq]
    by_cases none : stem word = []
    · rw [cut_iff_of_ending parts found nothing none]
      simp [nothing, none, endsInCapitals]
    · rw [cut_iff_of_stem last found nothing none]
      simp [nothing, none]

end Name

/-- The table of an entity has the plural of the snake case of its name as a name exactly if the
    plural of the name is cut like the name. -/
theorem Entity.tableName_eq_plural_iff {e : Entity} (derived : Relation.filled? e.table = none)
    (letters : ∀ c ∈ e.name.toList, Name.isPart c = true) :
    e.tableName = Name.plural (Name.snake e.name) ↔ Name.KeepsCut e.name.toList := by
  rw [← Name.snakeChars_pluralChars_iff letters, Entity.tableName, derived, Option.getD_none,
    Name.snake, Name.plural, Name.plural, Name.snake, String.toList_ofList, String.toList_ofList,
    String.ofList_inj]

/-- Orders of people have a table with a name of the same words, two of them irregular. -/
theorem Entity.tableName_eq_plural_iff_orders :
    let e : Entity := { name := "HTTPOrderPerson" }
    Relation.filled? e.table = none ∧ (∀ c ∈ e.name.toList, Name.isPart c = true) ∧
      e.tableName = Name.plural (Name.snake e.name) ∧ e.tableName = "http_order_people" := by
  have letters : ∀ c ∈ "HTTPOrderPerson".toList, Name.isPart c = true :=
    List.all_eq_true.1 (by decide +kernel)
  exact ⟨rfl, letters,
    (Entity.tableName_eq_plural_iff (e := { name := "HTTPOrderPerson" }) rfl letters).2
      (by decide +kernel), by decide +kernel⟩

/-- The plural of an acronym is cut in the middle of it. -/
theorem Entity.tableName_api :
    let e : Entity := { name := "API" }
    Relation.filled? e.table = none ∧ (∀ c ∈ e.name.toList, Name.isPart c = true) ∧
      e.tableName = "ap_is" ∧ Name.plural (Name.snake e.name) = "apis" := by
  exact ⟨rfl, List.all_eq_true.1 (by decide +kernel), by decide +kernel, by decide +kernel⟩

end EntityGraph
