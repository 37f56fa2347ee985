import EntityGraph.Proofs.Switches

/-!
Leaving out relation directives that are off. Without the directive the line is read as before, and
with it the whole text, but for the one case in which the directive decides the type of a relation.
-/
namespace EntityGraph

open Results

namespace Schema

variable {dialect : Dialect} {s : String} {b : Block} {k n : Nat}

/-- A line that declares something, with a relation directive that is off wherever it stands. The
    type does not stand behind the directive, and neither the type nor another directive goes on
    there. -/
structure SwitchedLine where
  name : String
  front : String
  directive : String
  back : String
  relational : directive ∈ relationDirectives
  plain : ':' ∉ name.toList
  named : ∃ c ∈ name.toList, Text.isBlank c = false
  declares : (name.toList.dropWhile Text.isBlank).head? ≠ some '#'
  typed : (∃ c ∈ front.toList, Text.isBlank c = false) ∨
    ∀ c ∈ (back.toList.dropWhile Text.isBlank).head?, c = '@'
  apart : ∀ c ∈ back.toList.head?, Text.isBlank c = true ∨ c = '@'
  closed : ¬ ArgumentOpen front.toList
  only : ∀ arg, (directive, arg) ∈
    directiveOccurrences (front ++ "@" ++ directive ++ "(false)" ++ back).toList →
      arg = some "false"

namespace SwitchedLine

variable (w : SwitchedLine)

/-- The directive as it is written. -/
def mark : String :=
  "@" ++ w.directive ++ "(false)"

/-- The line. -/
def text : String :=
  w.name ++ ":" ++ w.front ++ w.mark ++ w.back

/-- The line without the directive. -/
def shortened : String :=
  w.name ++ ":" ++ w.front ++ w.back

private theorem word : w.directive.toList ≠ [] ∧
    ∀ c ∈ w.directive.toList, Text.isWordChar c = true := by
  have all : ∀ directive ∈ relationDirectives, directive.toList ≠ [] ∧
      directive.toList.all Text.isWordChar = true := by decide
  obtain ⟨filled, word⟩ := all w.directive w.relational
  exact ⟨filled, List.all_eq_true.1 word⟩

private theorem level : w.mark.toList.count '\x7b' = w.mark.toList.count '\x7d' := by
  have all : ∀ directive ∈ relationDirectives, ("@" ++ directive ++ "(false)").toList.count '\x7b' =
      ("@" ++ directive ++ "(false)").toList.count '\x7d' := by decide
  exact all w.directive w.relational

private theorem stops : ∀ c ∈ w.back.toList.head?, Text.isWordChar c = false ∧ c ≠ '(' := by
  intro c first
  rcases w.apart c first with blank | rfl
  · exact apart_of_blank blank
  · decide

private theorem occurrences : directiveOccurrences (w.front ++ w.mark ++ w.back).toList =
    directiveOccurrences w.front.toList ++
      (w.directive, some "false") :: directiveOccurrences w.back.toList := by
  have split : (w.front ++ w.mark ++ w.back).toList = w.front.toList ++
      '@' :: (w.directive.toList ++ '(' :: ("false".toList ++ ')' :: w.back.toList)) := by
    simp [mark]
  obtain ⟨named, word⟩ := w.word
  rw [split, directiveOccurrences_append (fun _ => w.closed) (by rintro c ⟨⟩; decide),
    directiveOccurrences_named named word (by rintro c ⟨⟩; decide),
    argument?_eq_some.2 ⟨rfl, by decide⟩]
  simp

private theorem occurrences_shortened : directiveOccurrences (w.front ++ w.back).toList =
    directiveOccurrences w.front.toList ++ directiveOccurrences w.back.toList := by
  rw [String.toList_append, directiveOccurrences_append (fun _ => w.closed) w.stops]

theorem alikeBut : (directivesOf (w.front ++ w.mark ++ w.back).toList).AlikeBut w.directive
    (directivesOf (w.front ++ w.back).toList) := by
  have only : ∀ arg, (w.directive, arg) ∈
      directiveOccurrences (w.front ++ w.mark ++ w.back).toList → arg = some "false" := by
    intro arg member
    refine w.only arg ?_
    simpa [mark, String.append_assoc] using member
  constructor
  · rw [without_directivesOf, without_directivesOf, w.occurrences, w.occurrences_shortened,
      List.filter_append, List.filter_append, List.filter_cons_of_neg (by simp)]
  · exact fun arg member => only arg (mem_of_mem_directivesOf member)
  · intro arg member
    have member := mem_of_mem_directivesOf member
    rw [w.occurrences_shortened] at member
    refine only arg ?_
    rw [w.occurrences]
    rcases List.mem_append.1 member with early | late
    · exact List.mem_append_left _ early
    · exact List.mem_append_right _ (List.mem_cons_of_mem _ late)

private theorem toList_text : w.text.toList =
    w.name.toList ++ ':' :: (w.front ++ w.mark ++ w.back).toList := by
  simp [text]

private theorem toList_shortened : w.shortened.toList =
    w.name.toList ++ ':' :: (w.front ++ w.back).toList := by
  simp [shortened]

private theorem not_idle {line : String} {rest : List Char}
    (split : line.toList = w.name.toList ++ ':' :: rest) : ¬ Idle line := by
  have trimmed : (Text.trim line).toList =
      w.name.toList.dropWhile Text.isBlank ++ ':' :: Text.stripEnd Text.isBlank rest := by
    rw [Text.trim, split, Text.trimChars_append_cons (by decide), String.toList_ofList]
  have filled : w.name.toList.dropWhile Text.isBlank ≠ [] := by
    obtain ⟨c, member, solid⟩ := w.named
    intro none
    rw [List.dropWhile_eq_nil_iff.1 none c member] at solid
    cases solid
  rw [Idle, trimmed, List.head?_append_of_ne_nil _ filled, ← String.toList_inj, trimmed]
  rintro (empty | comment)
  · simp at empty
  · exact w.declares comment

/-- What the line declares. -/
def declaration (number : Int) : Declaration :=
  ⟨Text.trim w.name, String.ofList (typeToken (w.front ++ w.mark ++ w.back).toList),
    directivesOf (w.front ++ w.mark ++ w.back).toList, number⟩

theorem ofLine_text (oneLine : '\n' ∉ w.text.toList) (number : Int) (block : String) :
    Declaration.ofLine (Text.trim w.text) number block = .ok (w.declaration number) := by
  rw [w.toList_text, List.mem_append, List.mem_cons, not_or, not_or] at oneLine
  rw [← String.ofList_toList (s := w.text), w.toList_text]
  exact ofLine_trim w.plain w.named oneLine.2.2 number block

theorem ofLine_shortened (oneLine : '\n' ∉ w.text.toList) (number : Int) (block : String) :
    Declaration.ofLine (Text.trim w.shortened) number block =
      .ok { w.declaration number with directives := directivesOf (w.front ++ w.back).toList } := by
  have token : typeToken (w.front ++ w.back).toList =
      typeToken (w.front ++ w.mark ++ w.back).toList := by
    have apart : ∀ c ∈ w.back.toList.head?, inType c = false := by
      intro c first
      rcases w.apart c first with blank | rfl
      · exact inType_of_blank blank
      · decide
    have cut := typeToken_cut (w.directive ++ "(false)").toList w.typed apart
    simpa [mark] using cut.symm
  simp only [w.toList_text, String.toList_append, List.mem_append, List.mem_cons, not_or]
    at oneLine
  rw [← String.ofList_toList (s := w.shortened), w.toList_shortened,
    ofLine_trim w.plain w.named (by simp [oneLine]), token]
  rfl

theorem has_declaration (number : Int) :
    (w.declaration number).directives.has w.directive = true := by
  show (directivesOf _).has w.directive = true
  rw [has_directivesOf, w.occurrences]
  simp

end SwitchedLine

/-! ## Texts -/

theorem enumNames_eq {enums : List EnumDefinition} (given : enumsOf (blocks s) = .ok enums) :
    enums.map EnumDefinition.name = enumNames s := by
  have listed := (enumsFrom_eq_ok.1 given).1
  refine (map_eq_of_related listed fun b e made => ?_).symm
  rw [enum_of_enumOf made]

/-- A relation directive that is off can be left out of a line of an entity, unless the line stands
    for a relation and the directive comes first among those that decide its type. -/
theorem read_without_switch (w : SwitchedLine) (member : b ∈ blocks s)
    (entity : b.isEntity = true) (found : b.lines[k]? = some (n, w.text))
    (harmless : ∀ d, Declaration.ofLine (Text.trim w.text) n b.name = .ok d →
      d.StandsForField dialect (enumNames s) ∨ d.decisive? ≠ some w.directive) :
    ∃ before behind, LineAt s b k w.text.toList before behind ∧
      read dialect (String.ofList (before ++ (w.shortened.toList ++ behind))) =
        read dialect s := by
  obtain ⟨before, behind, stands, cut⟩ := exists_cut member found
  have exchanged := cut (w.name ++ ":" ++ w.front).toList w.mark.toList w.back.toList
    (by simp [SwitchedLine.text]) w.level
  have shortened : (w.name ++ ":" ++ w.front).toList ++ w.back.toList = w.shortened.toList := by
    simp [SwitchedLine.shortened]
  rw [shortened, String.ofList_toList] at exchanged
  obtain ⟨front, back, lines, lines'⟩ := exists_contentLines_set found
  refine ⟨before, behind, stands, exchanged.read ⟨rfl, rfl, rfl, ?_, fun _ enums given => ?_⟩⟩
  · intro plain
    rw [entity] at plain
    cases plain
  · rw [lines, lines', said, said, if_neg (w.not_idle w.toList_text),
      if_neg (w.not_idle w.toList_shortened)]
    have same : ∀ line, Related (Member.Alike dialect b.name)
        (lineMember dialect enums b.name line) (lineMember dialect enums b.name line) :=
      fun line => Related.refl Member.Alike.refl _
    apply List.rel_append (List.forall₂_same.2 fun line _ => same line)
    apply List.Forall₂.cons _ (List.forall₂_same.2 fun line _ => same line)
    -- The lines declare the same but for their directives, and these are alike.
    have declared := w.ofLine_text stands.oneLine n b.name
    have harmless := harmless _ declared
    rw [← enumNames_eq given] at harmless
    have alike : (w.declaration n).directives.AlikeBut w.directive
        (directivesOf (w.front ++ w.back).toList) := w.alikeBut
    rw [lineMember_of_ofLine declared,
      lineMember_of_ofLine (w.ofLine_shortened stands.oneLine n b.name)]
    exact related_memberOf alike w.relational (w.has_declaration n) harmless
      (solid_of_ofLine declared)

/-- A list of tags, on which a directive is off that has no part in the type of relations. -/
def tagLine : SwitchedLine where
  name := "  tags"
  front := " [Tag] @hasMany "
  directive := "hasOne"
  back := " @cascade"
  relational := by decide
  plain := by decide
  named := ⟨'t', by decide, by decide⟩
  declares := by decide
  typed := .inl ⟨'[', by decide, by decide⟩
  apart := by rintro c ⟨⟩; decide
  closed := not_argumentOpen (by decide)
  only := by
    have marks : directiveOccurrences
        (" [Tag] @hasMany " ++ "@" ++ "hasOne" ++ "(false)" ++ " @cascade").toList =
          [("hasMany", none), ("hasOne", some "false"), ("cascade", none)] := by decide +kernel
    intro arg member
    rw [marks] at member
    simpa using member

/-- A text with the list. -/
def tagged : String :=
  "type Post \x7b\n  tags: [Tag] @hasMany @hasOne(false) @cascade\n\x7d\n"

/-- The block of the text. -/
def taggedBlock : Block :=
  ⟨.type, "Post", [], [(1, ""), (2, "  tags: [Tag] @hasMany @hasOne(false) @cascade"), (3, "")]⟩

theorem read_without_switch_tagged : taggedBlock ∈ blocks tagged ∧ taggedBlock.isEntity = true ∧
    taggedBlock.lines[1]? = some (2, tagLine.text) ∧
    ∃ before behind, LineAt tagged taggedBlock 1 tagLine.text.toList before behind ∧
      read {} (String.ofList (before ++ (tagLine.shortened.toList ++ behind))) =
        read {} tagged := by
  have split : blocks tagged = [taggedBlock] := by decide +kernel
  have member : taggedBlock ∈ blocks tagged := split ▸ List.mem_singleton_self _
  have found : taggedBlock.lines[1]? = some (2, tagLine.text) := by decide
  have passive : (tagLine.declaration 2).decisive? = none := by decide +kernel
  refine ⟨member, rfl, found, read_without_switch tagLine member rfl found ?_⟩
  intro d declared
  rw [tagLine.ofLine_text (by decide)] at declared
  cases declared
  exact .inr (by simp [passive])

/-- A list of posts, on which a directive is off that comes first in the type of relations. -/
def postLine : SwitchedLine where
  name := "  posts"
  front := " [Post] @hasMany "
  directive := "belongsTo"
  back := ""
  relational := by decide
  plain := by decide
  named := ⟨'p', by decide, by decide⟩
  declares := by decide
  typed := .inl ⟨'[', by decide, by decide⟩
  apart := nofun
  closed := not_argumentOpen (by decide)
  only := by
    have marks : directiveOccurrences
        (" [Post] @hasMany " ++ "@" ++ "belongsTo" ++ "(false)" ++ "").toList =
          [("hasMany", none), ("belongsTo", some "false")] := by decide +kernel
    intro arg member
    rw [marks] at member
    simpa using member

/-- The directive makes a different relation of the line although it is off. -/
theorem read_posted :
    (∃ b ∈ blocks ("type User \x7b\n" ++ postLine.text ++ "\n\x7d\n"), b.isEntity = true ∧
      LineAt ("type User \x7b\n" ++ postLine.text ++ "\n\x7d\n") b 1 postLine.text.toList
        "type User \x7b\n".toList "\n\x7d\n".toList) ∧
    read {} ("type User \x7b\n" ++ postLine.shortened ++ "\n\x7d\n") ≠
      read {} ("type User \x7b\n" ++ postLine.text ++ "\n\x7d\n") := by
  have split : pieces ("type User \x7b\n" ++ postLine.text ++ "\n\x7d\n") =
      [.block ⟨.type, "User", [],
        [(1, ""), (2, "  posts: [Post] @hasMany @belongsTo(false)"), (3, "")]⟩] := by decide +kernel
  have split' : pieces ("type User \x7b\n" ++ postLine.shortened ++ "\n\x7d\n") =
      [.block ⟨.type, "User", [], [(1, ""), (2, "  posts: [Post] @hasMany "), (3, "")]⟩] := by decide +kernel
  constructor
  · refine ⟨_, by rw [blocks, split]; exact List.mem_singleton_self _, rfl, ?_⟩
    exact ⟨by decide, by decide, by decide, by decide, by decide⟩
  · intro same
    rw [read, read, split, split'] at same
    have types := congrArg (fun x => x.toOption.map fun done =>
      done.1.entities.map fun e => e.relations.map Relation.type) same
    exact absurd types (by decide +kernel)

end Schema

end EntityGraph
