import EntityGraph.Proofs.Taxonomy

/-!
How loading a document can fail. Whatever its values are, almost everything that is wrong with them
is told as a problem. What is not has its cause at a place of the document: something without
members is gone through, a number with too many digits stands for a text, or a piece of a relation
is neither null nor a text.
-/
namespace EntityGraph

open Results

/-- Whether a value is null or a text. -/
def Value.isTextual : Value → Bool
  | null | text _ => true
  | _ => false

theorem Value.given?_eq_some {v w : Value} : v.given? = some w ↔ v = w ∧ v.isGiven = true := by
  rw [given?]
  split
  · rename_i given
    simp [given]
  · rename_i missing
    simp [missing]

theorem Value.overlong_of_unwritten {v : Value} (unwritten : v.writtenText? = none) :
    v.overlongIn false = true := by
  rw [writtenText?] at unwritten
  split at unwritten
  · assumption
  · cases unwritten

/-- A textual value is the value of a text or of none. -/
theorem Value.exists_ofText? {v : Value} (textual : v.isTextual = true) : ∃ s, v = .ofText? s := by
  cases v with
  | null => exact ⟨none, rfl⟩
  | text s => exact ⟨some s, rfl⟩
  | _ => cases textual

/-! ## Drafts of values -/

namespace Record

/-- A piece of a draft. -/
def pieceOf (d : Draft Value) : Piece → Option Value
  | .foreignKey => d.foreignKey
  | .localKey => d.localKey
  | .relatedKey => d.relatedKey
  | .name => d.name
  | .morphName => d.morphName
  | .pivotTable => d.pivotTable
  | _ => none

/-- A draft whose pieces are texts or null. -/
def Textual (d : Draft Value) : Prop :=
  ∀ p v, pieceOf d p = some v → v.isTextual = true

variable {d : Draft Value}

private theorem exists_piece? {x : Option Value} (textual : ∀ v, x = some v → v.isTextual = true) :
    ∃ s : Option String, piece? x = piece? (s.map .text) := by
  cases x with
  | none => exact ⟨none, rfl⟩
  | some v =>
    obtain ⟨s, rfl⟩ := Value.exists_ofText? (textual v rfl)
    exact ⟨s, piece?_ofText? s⟩

/-- A textual draft is built like a draft of texts. -/
theorem buildSketch_of_textual (textual : Textual d) :
    ∃ texts : Draft String, buildSketch d = buildSketch (texts.map .text) := by
  obtain ⟨foreignKey, keyed⟩ := exists_piece? (textual .foreignKey)
  obtain ⟨localKey, locallyKeyed⟩ := exists_piece? (textual .localKey)
  obtain ⟨relatedKey, related⟩ := exists_piece? (textual .relatedKey)
  obtain ⟨name, named⟩ := exists_piece? (textual .name)
  obtain ⟨morphName, morphed⟩ := exists_piece? (textual .morphName)
  obtain ⟨pivotTable, tabled⟩ := exists_piece? (textual .pivotTable)
  simp only [pieceOf] at keyed locallyKeyed related named morphed tabled
  let texts : Draft String := {
    defaultLocalKey := d.defaultLocalKey, type := d.type, owner := d.owner, target := d.target
    foreignKey, localKey, relatedKey, name, morphName, pivotTable
    cascade := d.cascade, inferred := d.inferred }
  have same : givenPieces d = givenPieces (texts.map .text) := by
    simp only [givenPieces, Draft.map, texts, keyed, locallyKeyed, related, named, morphed, tabled]
  exact ⟨texts, by simp only [buildSketch, same]⟩

/-- The faults that building a draft can end with. -/
inductive SketchFault.Expected (d : Draft Value) : SketchFault → Prop
  | unset (f : DraftFault Value) : Expected d (.unset f)
  | overlong {v : Value} (given : d.morphName = some v) (long : v.overlongIn false = true) :
      Expected d .overlong
  | noPlural {v : Value} (given : d.morphName = some v) (wordless : v.isTextual = false) :
      Expected d .noPlural
  | invalid {p : Piece} {v : Value} (given : pieceOf d p = some v)
      (wordless : v.isTextual = false) (i : Invalid) (title : i.title = relationPart.title) :
      Expected d (.invalid i)

/-- The columns are named after a text, unless the draft gives something else. -/
private theorem text_or_given {other : Option String} {v : Value}
    (named : ((givenPieces d).morphName <|> other.map .text) = some v) :
    (∃ s, v = .text s) ∨ (d.morphName = some v ∧ v.isTextual = false) := by
  cases given : (givenPieces d).morphName with
  | some v' =>
    rw [given] at named
    obtain rfl : v' = v := Option.some.inj named
    obtain ⟨v, same, kept⟩ := Option.bind_eq_some_iff.1 given
    obtain ⟨rfl, isGiven⟩ := Value.given?_eq_some.1 kept
    cases v with
    | null => cases isGiven
    | text s => exact .inl ⟨s, rfl⟩
    | _ => exact .inr ⟨same, rfl⟩
  | none =>
    rw [given] at named
    cases other with
    | none => cases named
    | some s => exact .inl ⟨s, (Option.some.inj named).symm⟩

private theorem pieceOr_fails {P : SketchFault → Prop} {given : Option Value}
    {conventional : Except SketchFault Value} (fails : FailsOnly P conventional) :
    FailsOnly P (pieceOr given conventional) := by
  cases given with
  | none => exact fails
  | some v => exact FailsOnly.ok v

theorem fillValues_fails (d : Draft Value) (type : RelationType) (owner target : String) :
    FailsOnly (SketchFault.Expected d) (fillValues (givenPieces d) type owner target) := by
  unfold fillValues
  dsimp only
  refine FailsOnly.bind (pieceOr_fails ?_) fun foreignKey _ =>
    FailsOnly.bind (pieceOr_fails ?_) fun pivot _ => FailsOnly.ok _
  · unfold conventionalKey
    split
    · exact FailsOnly.ok _
    · split
      · exact FailsOnly.ok _
      · rename_i v named
        split
        · rename_i unwritten
          rcases text_or_given named with ⟨s, rfl⟩ | ⟨given, -⟩
          · cases unwritten
          · exact FailsOnly.error (.overlong given (Value.overlong_of_unwritten unwritten))
        · exact FailsOnly.ok _
  · unfold conventionalPivot
    split
    · exact FailsOnly.ok _
    · split
      · exact FailsOnly.ok _
      · split
        · exact FailsOnly.ok _
        · exact FailsOnly.ok _
        · rename_i v noText named
          rcases text_or_given named with ⟨s, rfl⟩ | ⟨given, wordless⟩
          · exact absurd rfl (noText s)
          · exact FailsOnly.error (.noPlural given wordless)

theorem title_of_ofRecord {α : Type} {p : Part α} {r : Record} {i : Invalid}
    (failed : p.ofRecord r = .error i) : i.title = p.title := by
  change (p.readEntries (entries r)).mapError _ = _ at failed
  cases read : p.readEntries (entries r) with
  | ok x =>
    rw [read] at failed
    cases failed
  | error faults =>
    rw [read] at failed
    cases failed
    rfl

theorem buildSketch_fails (d : Draft Value) :
    FailsOnly (SketchFault.Expected d) (buildSketch d) := by
  -- A draft of texts is never refused; where it is none, the wordless piece is to blame.
  by_cases textual : Textual d
  · obtain ⟨texts, same⟩ := buildSketch_of_textual textual
    rw [same]
    intro f failed
    obtain ⟨f, rfl⟩ := exists_of_buildSketch_error failed
    exact .unset f
  · simp only [Textual, not_forall, Bool.not_eq_true] at textual
    obtain ⟨p, v, given, wordless⟩ := textual
    unfold buildSketch
    refine FailsOnly.bind (FailsOnly.mapError fun f _ => .unset f) fun ends _ => ?_
    refine FailsOnly.bind (fillValues_fails d _ _ _) fun record _ => ?_
    exact FailsOnly.mapError fun i failed => .invalid given wordless i (title_of_ofRecord failed)

end Record

/-! ## Places -/

namespace Document

/-- A place of a document, with the value that stands there. -/
inductive Place where
  /-- What is gone through. -/
  | listing (v : Value)
  /-- What stands for a text. -/
  | text (v : Value)
  /-- A piece of a relation. -/
  | piece (key : String) (v : Value)

/-- The entries of a value, if it is a mapping. -/
def entriesIn (v : Value) : Entries :=
  match v.plain with
  | .mapping es => es
  | _ => []

/-- The members of a value that is given, if it has any. -/
def membersIn (v : Value) : List Value :=
  (v.given?.bind Value.members?).getD []

/-- The entries of the members under a key. -/
def itemsIn (es : Entries) (key : String) : List Entries :=
  (membersIn (Value.find es key)).map entriesIn

/-- The keys of a section, which stand for the names of attributes. -/
def keyPlaces (v : Value) : List Place :=
  (entriesIn v).map fun e => .text e.1

/-- The places of an enumeration. -/
def enumPlaces (item : Entries) : List Place :=
  [.text (Value.find item "name"), .listing (Value.find item "values")] ++
    (membersIn (Value.find item "values")).map .text

/-- The places of a field. -/
def fieldPlaces (item : Entries) : List Place :=
  [.text (Value.find item "name"), .text (Value.find item "type")]

/-- The keys of the pieces of a relation. -/
def pieceKeys : List String :=
  ["name", "foreign_key", "local_key", "related_key", "morph_name", "pivot", "pivot_table"]

/-- The places of a relation. -/
def relationPlaces (item : Entries) : List Place :=
  [.text (Value.find item "entity"), .text (Value.find item "type"),
    .text (Value.find item "morph_name")] ++
    pieceKeys.map fun key => .piece key (Value.find item key)

/-- The places of an entity. -/
def entityPlaces (item : Entries) : List Place :=
  [.text (Value.find item "name"), .listing (Value.find item "fields"),
    .listing (Value.find item "relations")] ++
    keyPlaces (Value.find item "settings") ++ (itemsIn item "fields").flatMap fieldPlaces ++
    (itemsIn item "relations").flatMap relationPlaces

/-- The places of a document. -/
def places (es : Entries) : List Place :=
  [.listing (Value.find es "enums")] ++ keyPlaces (Value.find es "app") ++
    (itemsIn es "enums").flatMap enumPlaces ++ (itemsIn es "entities").flatMap entityPlaces

end Document

open Document in
/-- The failures that loading a document with the given places can end with: problems, and what the
    values at its places cause. -/
inductive Failure.OfDocument (ps : List Place) : Failure → Prop
  | problem (p : Problem)
      (known : p.category ∈ [.parse, .relationDefinition, .structural, .referential]) :
      OfDocument ps (.problem p)
  | memberless {v : Value} (place : .listing v ∈ ps) (given : v.isGiven = true)
      (none : v.members? = none) : OfDocument ps .wrongKind
  | overlong {v : Value} (place : .text v ∈ ps) (long : v.overlongIn false = true) :
      OfDocument ps (.badValue Decimal.overlongMessage)
  | noPlural {v : Value} (place : .piece "morph_name" v ∈ ps) (wordless : v.isTextual = false) :
      OfDocument ps .wrongKind
  | refused {key : String} {v : Value} (place : .piece key v ∈ ps)
      (wordless : v.isTextual = false) (i : Record.Invalid) (title : i.title = "Relation") :
      OfDocument ps (.invalid i)

namespace Document

/-- A fault that is told as a failure of a document with the given places. -/
abbrev DocumentFault.Expected (ps : List Place) (f : DocumentFault) : Prop :=
  (Failure.ofDocument f).OfDocument ps

variable {ps : List Place} {v : Value} {item es : Entries}

private theorem told {message : String} {context : Context} {faults : Option (List Record.Fault)} :
    (Failure.problem ⟨.parse, message, context, faults⟩).OfDocument ps :=
  .problem _ (by simp)

/-! ## Values -/

theorem sectionEntries_fails (what : String) (v : Value) :
    FailsOnly (DocumentFault.Expected ps) (sectionEntries what v) := by
  unfold sectionEntries
  split
  · exact FailsOnly.ok _
  · exact FailsOnly.ok _
  · exact FailsOnly.error told

theorem entriesIn_of_sectionEntries {what : String} (done : sectionEntries what v = .ok item) :
    entriesIn v = item := by
  unfold sectionEntries at done
  unfold entriesIn
  split at done
  · rename_i null
    cases done
    rw [null]
  · rename_i mapping
    cases done
    rw [mapping]
  · cases done

theorem membersOf_fails (place : .listing v ∈ ps) :
    FailsOnly (DocumentFault.Expected ps) (membersOf v) := by
  unfold membersOf
  split
  · exact FailsOnly.ok _
  · rename_i given
    obtain ⟨rfl, isGiven⟩ := Value.given?_eq_some.1 given
    split
    · exact FailsOnly.ok _
    · rename_i none
      exact FailsOnly.error (.memberless place isGiven none)

theorem membersIn_of_membersOf {vs : List Value} (done : membersOf v = .ok vs) :
    membersIn v = vs := by
  unfold membersOf at done
  unfold membersIn
  split at done
  · rename_i missing
    cases done
    rw [missing]
    rfl
  · rename_i given
    split at done
    · rename_i members
      cases done
      rw [given, Option.bind_some, members, Option.getD_some]
    · cases done

theorem membersIn_of_plain {vs : List Value} (list : v.plain = .list vs) : membersIn v = vs := by
  cases v with
  | list xs =>
    obtain rfl : xs = vs := Value.list.inj list
    cases xs <;> rfl
  | again v =>
    obtain rfl : v = .list vs := list
    cases vs <;> rfl
  | _ => cases list

theorem textOf_fails (place : .text v ∈ ps) :
    FailsOnly (DocumentFault.Expected ps) (textOf v) := by
  unfold textOf
  split
  · exact FailsOnly.ok _
  · rename_i unwritten
    exact FailsOnly.error (.overlong place (Value.overlong_of_unwritten unwritten))

theorem trimmedText_fails (place : .text v ∈ ps) :
    FailsOnly (DocumentFault.Expected ps) (trimmedText v) := by
  unfold trimmedText
  split
  · exact FailsOnly.ok _
  · rename_i given
    obtain ⟨rfl, -⟩ := Value.given?_eq_some.1 given
    exact FailsOnly.map (textOf_fails place)

theorem attributeEntries_fails {α : Type} {p : Record.Part α} {done : Entries}
    (inside : es.map (fun e => .text e.1) ⊆ ps) :
    FailsOnly (DocumentFault.Expected ps) (attributeEntries p done es) := by
  induction es generalizing done with
  | nil => exact FailsOnly.ok _
  | cons e rest ih =>
    obtain ⟨k, v⟩ := e
    have later := fun done => @ih done fun place member => inside (List.mem_cons_of_mem _ member)
    rw [attributeEntries]
    refine FailsOnly.bind (textOf_fails (inside List.mem_cons_self)) fun name _ => ?_
    dsimp only
    split
    · exact later _
    · exact later _

theorem sectionKeys_fails {α : Type} (p : Record.Part α) (inside : keyPlaces v ⊆ ps)
    (same : entriesIn v = es) : FailsOnly (DocumentFault.Expected ps) (attributeEntries p [] es) :=
  attributeEntries_fails fun place member => inside (by rwa [keyPlaces, same])

/-! ## Enumerations and fields -/

theorem enumOf_fails (inside : enumPlaces (entriesIn v) ⊆ ps) :
    FailsOnly (DocumentFault.Expected ps) (enumOf v) := by
  unfold enumOf
  refine FailsOnly.bind (sectionEntries_fails _ _) fun item read => ?_
  rw [entriesIn_of_sectionEntries read] at inside
  refine FailsOnly.bind (trimmedText_fails (inside (by simp [enumPlaces]))) fun name _ => ?_
  refine FailsOnly.bind (membersOf_fails (inside (by simp [enumPlaces]))) fun vs found => ?_
  have members := membersIn_of_membersOf found
  refine FailsOnly.bind (FailsOnly.mapM fun v member => ?_) fun values _ => ?_
  · exact textOf_fails (inside (by simp [enumPlaces, members, member]))
  · exact FailsOnly.mapError fun i _ => told

theorem typeNamed_fails (scalars : ScalarTable) (enums : List EnumDefinition)
    (entity field token : String) :
    FailsOnly (DocumentFault.Expected ps) (typeNamed scalars enums entity field token) := by
  unfold typeNamed
  split
  · exact FailsOnly.ok _
  · split
    · exact FailsOnly.ok _
    · split
      · exact FailsOnly.ok _
      · exact FailsOnly.error told

theorem fieldTypeOf_fails (scalars : ScalarTable) (enums : List EnumDefinition)
    (entity field : String) (place : .text v ∈ ps) :
    FailsOnly (DocumentFault.Expected ps) (fieldTypeOf scalars enums entity field v) := by
  unfold fieldTypeOf
  split
  · exact FailsOnly.ok _
  · split
    · exact FailsOnly.ok _
    · exact typeNamed_fails scalars enums entity field _
  · exact FailsOnly.bind (textOf_fails place) fun s _ =>
      typeNamed_fails scalars enums entity field _

theorem fieldOf_fails (scalars : ScalarTable) (enums : List EnumDefinition) (entity : String)
    (inside : fieldPlaces (entriesIn v) ⊆ ps) :
    FailsOnly (DocumentFault.Expected ps) (fieldOf scalars enums entity v) := by
  unfold fieldOf
  refine FailsOnly.bind (sectionEntries_fails _ _) fun item read => ?_
  rw [entriesIn_of_sectionEntries read] at inside
  refine FailsOnly.bind (trimmedText_fails (inside (by simp [fieldPlaces]))) fun name _ => ?_
  refine FailsOnly.bind
    (fieldTypeOf_fails scalars enums entity name (inside (by simp [fieldPlaces]))) fun type _ => ?_
  exact FailsOnly.mapError fun i _ => told

/-! ## Relations -/

theorem relationTypeOf_fails (entity : String) (place : .text v ∈ ps) :
    FailsOnly (DocumentFault.Expected ps) (relationTypeOf entity v) := by
  unfold relationTypeOf
  split
  · exact FailsOnly.ok _
  · rename_i given
    obtain ⟨rfl, -⟩ := Value.given?_eq_some.1 given
    refine FailsOnly.bind (textOf_fails place) fun s _ => ?_
    split
    · exact FailsOnly.ok _
    · exact FailsOnly.error told

private theorem find_of_find? {key : String} (found : Value.find? item key = some v) :
    Value.find item key = v := by
  rw [Value.find, found, Option.getD_some]

private theorem place_of_key {key : String} (inside : relationPlaces item ⊆ ps)
    (known : key ∈ pieceKeys) : .piece key (Value.find item key) ∈ ps :=
  inside (List.mem_append_right _ (List.mem_map.2 ⟨key, known, rfl⟩))

/-- The table of a relation stands under one of its names. -/
private theorem pivotOf_eq (item : Entries) :
    pivotOf item = Value.find item "pivot" ∨ pivotOf item = Value.find item "pivot_table" := by
  unfold pivotOf
  cases given : (Value.find item "pivot").given? with
  | none => exact .inr rfl
  | some v => exact .inl (Value.given?_eq_some.1 given).1.symm

/-- A piece of the draft stands at a place of the relation. -/
private theorem exists_place {key entity : String} {type : RelationType} {target : Option String}
    {p : Record.Piece} (inside : relationPlaces item ⊆ ps)
    (given : Record.pieceOf (draftOf key entity type target item) p = some v) :
    ∃ name, .piece name v ∈ ps := by
  cases p with
  | foreignKey | localKey | relatedKey | name | morphName =>
    rw [← find_of_find? given]
    exact ⟨_, place_of_key inside (by decide)⟩
  | pivotTable =>
    obtain rfl : pivotOf item = v := Option.some.inj given
    rcases pivotOf_eq item with same | same
    · exact ⟨"pivot", same ▸ place_of_key inside (by decide)⟩
    · exact ⟨"pivot_table", same ▸ place_of_key inside (by decide)⟩
  | type | owner | target | targetEntity | cascade | inferred => cases given

theorem draftOf_fails (key entity : String) (type : RelationType) (target : Option String)
    (inside : relationPlaces item ⊆ ps) :
    FailsOnly (fun f => (DocumentFault.relation f).Expected ps)
      (Record.buildSketch (draftOf key entity type target item)) := by
  refine (Record.buildSketch_fails _).imp fun f expected => ?_
  cases expected with
  | unset f => cases f <;> exact .problem _ (by simp [Problem.ofDraft])
  | overlong given long =>
    refine .overlong (inside ?_) long
    rw [← find_of_find? given]
    simp [relationPlaces]
  | noPlural given wordless =>
    refine .noPlural ?_ wordless
    rw [← find_of_find? given]
    exact place_of_key inside (by decide)
  | invalid given wordless i title =>
    obtain ⟨name, place⟩ := exists_place inside given
    exact .refused place wordless i title

private theorem exists_given (textual : v.isTextual = true) :
    ∃ s, v.given?.getD (.text "") = .text s := by
  cases given : v.given? with
  | none => exact ⟨"", rfl⟩
  | some w =>
    obtain ⟨rfl, isGiven⟩ := Value.given?_eq_some.1 given
    cases v with
    | text s => exact ⟨s, rfl⟩
    | null => cases isGiven
    | _ => cases textual

/-- A relation without a type or a target is taken if its pieces are texts. -/
private theorem relationPart_incomplete (entity name : String) (type : Option RelationType)
    (target foreignKey pivotTable : Option String) :
    Record.relationPart.ofRecord [("type", .ofText? (type.map RelationType.label)),
      ("local_entity", .text entity), ("related_entity_name", .ofText? target),
      ("relation_name", .text name), ("foreign_key", .ofText? foreignKey),
      ("pivot_table", .ofText? pivotTable)] =
        .ok { type, owner := entity, target, name, foreignKey, pivotTable } := by
  refine Record.ofRecord_of_readEntries (Record.readEntries_entries ?_ ?_)
  · simp [Record.relationPart, Record.Attribute.optional]
  · simp [Record.relationPart, Record.Attribute.optional, Record.Part.readAttributes,
      Record.Part.readAttribute, List.lookup_cons, Except.map]

/-- A relation without a type or a target is only refused if one of its pieces is wordless. -/
theorem incompleteRelation_fails (entity : String) (type : Option RelationType)
    (target : Option String) (inside : relationPlaces item ⊆ ps) :
    FailsOnly (DocumentFault.Expected ps) (incompleteRelation entity type target item) := by
  by_cases textual : ∀ key ∈ pieceKeys, (Value.find item key).isTextual = true
  · obtain ⟨name, named⟩ := exists_given (textual "name" (by decide))
    obtain ⟨foreignKey, keyed⟩ := Value.exists_ofText? (textual "foreign_key" (by decide))
    obtain ⟨pivotTable, tabled⟩ : ∃ s, pivotOf item = .ofText? s := by
      rcases pivotOf_eq item with same | same
      · exact same ▸ Value.exists_ofText? (textual "pivot" (by decide))
      · exact same ▸ Value.exists_ofText? (textual "pivot_table" (by decide))
    have taken := relationPart_incomplete entity name type target foreignKey pivotTable
    unfold incompleteRelation
    rw [named, keyed, tabled]
    dsimp only
    rw [taken]
    exact FailsOnly.ok _
  · simp only [not_forall, Bool.not_eq_true] at textual
    obtain ⟨key, known, wordless⟩ := textual
    refine FailsOnly.mapError fun i failed => ?_
    exact .refused (place_of_key inside known) wordless i (Record.title_of_ofRecord failed)

theorem relationOf_fails (key entity : String) (inside : relationPlaces (entriesIn v) ⊆ ps) :
    FailsOnly (DocumentFault.Expected ps) (relationOf key entity v) := by
  unfold relationOf
  refine FailsOnly.bind (sectionEntries_fails _ _) fun item read => ?_
  rw [entriesIn_of_sectionEntries read] at inside
  refine FailsOnly.bind (trimmedText_fails (inside (by simp [relationPlaces]))) fun name _ => ?_
  refine FailsOnly.bind (relationTypeOf_fails entity (inside (by simp [relationPlaces])))
    fun type _ => ?_
  split
  · exact incompleteRelation_fails entity none _ inside
  · split
    · exact incompleteRelation_fails entity _ none inside
    · exact FailsOnly.mapError (draftOf_fails key entity _ _ inside)

/-! ## Documents -/

/-- The places of each member under a key are among those of all of them. -/
private theorem places_of_member {key : String} {vs : List Value}
    {placesOf : Entries → List Place} (members : membersIn (Value.find item key) = vs)
    (inside : (itemsIn item key).flatMap placesOf ⊆ ps) (member : v ∈ vs) :
    placesOf (entriesIn v) ⊆ ps := by
  intro place here
  rw [itemsIn, members] at inside
  exact inside (List.mem_flatMap.2 ⟨entriesIn v, List.mem_map_of_mem member, here⟩)

theorem entityOf_fails (scalars : ScalarTable) (key : String) (enums : List EnumDefinition)
    (inside : entityPlaces (entriesIn v) ⊆ ps) :
    FailsOnly (DocumentFault.Expected ps) (entityOf scalars key enums v) := by
  unfold entityOf
  refine FailsOnly.bind (sectionEntries_fails _ _) fun item read => ?_
  rw [entriesIn_of_sectionEntries read] at inside
  simp only [entityPlaces, List.append_subset, List.cons_subset, List.nil_subset] at inside
  obtain ⟨⟨⟨⟨named, fielded, related, -⟩, keys⟩, fields⟩, relations⟩ := inside
  refine FailsOnly.bind (trimmedText_fails named) fun name _ => ?_
  refine FailsOnly.bind (sectionEntries_fails _ _) fun section_ read => ?_
  refine FailsOnly.bind (sectionKeys_fails _ keys (entriesIn_of_sectionEntries read))
    fun given _ => ?_
  refine FailsOnly.bind (FailsOnly.mapError fun i _ => told) fun settings _ => ?_
  refine FailsOnly.bind (FailsOnly.mapError fun i _ => told) fun shell _ => ?_
  refine FailsOnly.bind (membersOf_fails fielded) fun fieldValues found => ?_
  refine FailsOnly.bind (FailsOnly.mapM fun v member => fieldOf_fails scalars enums name
    (places_of_member (membersIn_of_membersOf found) fields member)) fun fs _ => ?_
  refine FailsOnly.bind (membersOf_fails related) fun relationValues found => ?_
  refine FailsOnly.bind (FailsOnly.mapM fun v member =>
    relationOf_fails key name (places_of_member (membersIn_of_membersOf found) relations member))
    fun rs _ => ?_
  exact FailsOnly.ok _

theorem read_fails (scalars : ScalarTable) (key : String) (inside : places es ⊆ ps) :
    FailsOnly (DocumentFault.Expected ps) (read scalars key (.mapping es)) := by
  simp only [places, List.append_subset, List.cons_subset, List.nil_subset] at inside
  obtain ⟨⟨⟨⟨listed, -⟩, keys⟩, enums⟩, entities⟩ := inside
  unfold read
  dsimp only
  split
  · rename_i appEntries members app list
    have appRead : entriesIn (Value.find es "app") = appEntries := by rw [entriesIn, app]
    refine FailsOnly.bind ?_ fun app _ => ?_
    · refine FailsOnly.bind (sectionKeys_fails _ keys appRead) fun given _ => ?_
      exact FailsOnly.mapError fun i _ => told
    refine FailsOnly.bind (membersOf_fails listed) fun enumValues found => ?_
    refine FailsOnly.bind (FailsOnly.mapM fun v member =>
      enumOf_fails (places_of_member (membersIn_of_membersOf found) enums member)) fun es _ => ?_
    refine FailsOnly.bind (FailsOnly.mapM fun v member =>
      entityOf_fails scalars key _ (places_of_member (membersIn_of_plain list) entities member))
      fun entities _ => ?_
    exact FailsOnly.ok _
  · exact FailsOnly.error told
  · exact FailsOnly.error told

end Document

/-! ## Loading -/

/-- Loading a document gives a graph, or fails with a problem, or with what the values at its places
    cause. -/
theorem Loader.load_document_fails {l : Loader} {es : Entries} {f : Failure}
    (failed : l.load (some (.document es)) (.text "json") = .error f) :
    f.OfDocument (Document.places es) := by
  have json : l.load (some (.document es)) (.text "json") =
      (Source.document es).load l.dialect l.options .json :=
    load_label l (.document es) .json
  rw [json] at failed
  refine FailsOnly.bind (FailsOnly.bind ?_ fun c _ => FailsOnly.ok _) (fun g _ => ?_) f failed
  · refine FailsOnly.bind (FailsOnly.ok _) fun v same => ?_
    cases same
    refine FailsOnly.bind (FailsOnly.mapError fun f failed => ?_) fun c _ => FailsOnly.ok _
    exact Document.read_fails _ _ (List.Subset.refl _) f failed
  · obtain ⟨g, warnings⟩ := g
    dsimp only
    split
    · exact FailsOnly.ok _
    · exact FailsOnly.error (.problem _ (Failure.checkCategory_mem _))

/-- What loading a document fails with. -/
def Loader.failure? (l : Loader) (es : Entries) : Option Failure :=
  match l.load (some (.document es)) (.text "json") with
  | .ok _ => none
  | .error f => some f

theorem Loader.load_of_failure? (l : Loader) (es : Entries) (f : Failure)
    (failed : l.failure? es = some f) :
    l.load (some (.document es)) (.text "json") = .error f := by
  unfold failure? at failed
  split at failed
  · cases failed
  · rename_i same
    rw [same, Option.some.inj failed]

/-- A document whose relation has a number as its name. -/
def Document.numbered : Entries := [
  (.text "app", .mapping [(.text "name", .text "Blog")]),
  (.text "entities", .list [.mapping [
    (.text "name", .text "Post"),
    (.text "relations", .list [.mapping [
      (.text "type", .text "hasMany"), (.text "name", .int 5)]])]])]

/-- Loading the document fails because the name is refused. -/
theorem Loader.load_document_fails_numbered :
    Loader.load {} (some (.document Document.numbered)) (.text "json") =
      .error (.invalid ⟨"Relation", [⟨[.name "relation_name"], .textType⟩]⟩) ∧
    (Failure.invalid ⟨"Relation", [⟨[.name "relation_name"], .textType⟩]⟩).OfDocument
      (Document.places Document.numbered) := by
  have failed := load_of_failure? {} Document.numbered
    (.invalid ⟨"Relation", [⟨[.name "relation_name"], .textType⟩]⟩) (by decide +kernel)
  exact ⟨failed, load_document_fails failed⟩

/-- A document with a number in place of its enumerations. -/
def Document.uncounted : Entries := [
  (.text "app", .mapping [(.text "name", .text "Blog")]),
  (.text "entities", .list []),
  (.text "enums", .int 5)]

/-- Loading the document neither gives a graph nor fails with a problem. -/
theorem Loader.load_document_uncounted :
    ¬ ((∃ g, Loader.load {} (some (.document Document.uncounted)) (.text "json") = .ok g) ∨
      ∃ p, Loader.load {} (some (.document Document.uncounted)) (.text "json") =
        .error (.problem p)) := by
  have failed := load_of_failure? {} Document.uncounted .wrongKind (by decide +kernel)
  rw [failed]
  rintro (⟨g, made⟩ | ⟨p, told⟩)
  · cases made
  · cases told

end EntityGraph
