import EntityGraph.Document.Contents
import EntityGraph.Proofs.Declared
import EntityGraph.Proofs.Dumps

/-!
Documents from dumps. A dump has the shape of a document, except that documents have shorter names
for some attributes of relations. What a schema text can declare is read back from its dump.
-/
namespace EntityGraph

open Results Record

/-! ## Renaming -/

namespace Value

/-- A list with its members changed. -/
def mapMembers (f : Value → Value) : Value → Value
  | list vs => list (vs.map f)
  | v => v

/-- A mapping with the value of a text key changed. -/
def mapAt (key : String) (f : Value → Value) : Value → Value
  | mapping es => mapping (es.map fun (k, v) => if k.sameKey (text key) then (k, f v) else (k, v))
  | v => v

/-- A mapping with its text keys renamed. -/
def renameKeys (rename : String → String) : Value → Value
  | mapping es => mapping (es.map fun (k, v) => match k with
    | text s => (text (rename s), v)
    | k => (k, v))
  | v => v

theorem mapAt_ofRecord (key : String) (f : Value → Value) (r : Record) :
    mapAt key f (ofRecord r) =
      ofRecord (r.map fun (k, v) => if k = key then (k, f v) else (k, v)) := by
  have each : ∀ e : String × Value, (if (text e.1).sameKey (text key) then (text e.1, f e.2)
      else (text e.1, e.2)) =
        (text (if e.1 = key then (e.1, f e.2) else e).1,
          (if e.1 = key then (e.1, f e.2) else e).2) := by
    intro e
    by_cases same : e.1 = key <;> simp [sameKey, same]
  simp [mapAt, ofRecord, Function.comp_def, each]

theorem renameKeys_ofRecord (rename : String → String) (r : Record) :
    renameKeys rename (ofRecord r) = ofRecord (r.map fun (k, v) => (rename k, v)) := by
  simp [renameKeys, ofRecord, Function.comp_def]

end Value

namespace Document

/-- The attributes of relations that documents have other names for. -/
def relationKeys : List (String × String) := [
  ("related_entity_name", "entity"), ("relation_name", "name"), ("pivot_table", "pivot")]

/-- The name that documents have for an attribute of relations. -/
def relationKey (name : String) : String :=
  (relationKeys.lookup name).getD name

/-- The dump of an entity as a document has it. -/
def ofEntityDump : Value → Value :=
  .mapAt "relations" (.mapMembers (.renameKeys relationKey))

/-- The document of a dump. -/
def ofDump (dump : Value) : Entries :=
  let part (key : String) : Value := match dump with
    | .mapping es => Value.find es key
    | _ => .null
  [(.text "app", part "app"), (.text "enums", part "enums"),
    (.text "entities", (part "entities").mapMembers ofEntityDump)]

/-- The attributes of a relation under the names of documents. -/
def relationRecord (r : Relation) : Record :=
  r.record.map fun (k, v) => (relationKey k, v)

/-- The attributes of an entity as a document has them. -/
def entityRecord (e : Entity) : Record := [
  ("name", .text e.name),
  ("table", .ofText? e.table),
  ("fields", .list (e.fields.map fun f => .ofRecord f.record)),
  ("relations", .list (e.relations.map fun r => .ofRecord (relationRecord r))),
  ("settings", .ofRecord e.settings.record),
  ("table_name", .text e.tableName)]

/-! ## Entries -/

theorem find_entries (r : Record) (key : String) :
    Value.find (entries r) key = (r.lookup key).getD .null := by
  rw [Value.find, find?_entries]

/-- What a source declares as a document has it. -/
def contentsRecord (c : Contents) : Record := [
  ("app", .ofRecord c.app.record),
  ("enums", .list (c.enums.map fun e => .ofRecord e.record)),
  ("entities", .list (c.entities.map fun e => .ofRecord (entityRecord e)))]

theorem ofEntityDump_record (e : Entity) :
    ofEntityDump (.ofRecord e.record) = .ofRecord (entityRecord e) := by
  simp [ofEntityDump, Value.mapAt_ofRecord, Entity.record, entityRecord, Value.mapMembers,
    Function.comp_def, Value.renameKeys_ofRecord, relationRecord]

theorem ofDump_record (g : Graph) :
    ofDump (.ofRecord g.record) = entries (contentsRecord ⟨g.app, g.entities, g.enums⟩) := by
  have app : Value.find (entries g.record) "app" = .ofRecord g.app.record := by
    simp [find_entries, Graph.record]
  have enums : Value.find (entries g.record) "enums" =
      .list (g.enums.map fun e => .ofRecord e.record) := by
    simp [find_entries, Graph.record, List.lookup_cons]
  have entities : Value.find (entries g.record) "entities" =
      .list (g.entities.map fun e => .ofRecord e.record) := by
    simp [find_entries, Graph.record, List.lookup_cons]
  show [(_, Value.find (entries g.record) "app"), (_, Value.find (entries g.record) "enums"),
    (_, (Value.find (entries g.record) "entities").mapMembers ofEntityDump)] = _
  simp only [app, enums, entities, Value.mapMembers, List.map_map, Function.comp_def,
    ofEntityDump_record]
  rfl

private theorem putEntry_entries {r : Record} {k : String} {v : Value}
    (fresh : k ∉ r.map Prod.fst) :
    Value.putEntry (entries r) (.text k) v = entries (r ++ [(k, v)]) := by
  induction r with
  | nil => rfl
  | cons e rest ih =>
    obtain ⟨k', v'⟩ := e
    simp only [List.map_cons, List.mem_cons, not_or] at fresh
    have apart : (Value.text k').sameKey (.text k) = false := by
      simpa [Value.sameKey] using Ne.symm fresh.1
    show Value.putEntry ((.text k', v') :: entries rest) (.text k) v = _
    rw [Value.putEntry, apart, if_neg Bool.false_ne_true, ih fresh.2]
    rfl

@[simp] theorem textOf_text (s : String) : textOf (.text s) = .ok s := rfl

private theorem attributeEntries_from {α : Type} {p : Record.Part α} {done r : Record}
    (own : ∀ k ∈ r.map Prod.fst, Name.snake k = k ∧ p.attributes.any (·.name == k) = true)
    (distinct : ((done ++ r).map Prod.fst).Nodup) :
    attributeEntries p (entries done) (entries r) = .ok (entries (done ++ r)) := by
  induction r generalizing done with
  | nil => rw [List.append_nil]; rfl
  | cons e rest ih =>
    obtain ⟨k, v⟩ := e
    obtain ⟨plain, known⟩ := own k (by simp)
    have fresh : k ∉ done.map Prod.fst := by
      intro old
      rw [List.map_append, List.nodup_append] at distinct
      exact distinct.2.2 k old k (by simp) rfl
    have split : done ++ (k, v) :: rest = (done ++ [(k, v)]) ++ rest := by simp
    show attributeEntries p (entries done) ((.text k, v) :: entries rest) = _
    rw [attributeEntries]
    simp only [textOf_text, ok_bind, plain, known, if_true]
    rw [putEntry_entries fresh, split]
    refine ih (fun k member => own k ?_) (split ▸ distinct)
    rw [List.map_cons]
    exact List.mem_cons_of_mem _ member

/-- The attributes of a part are taken under their own names. -/
theorem attributeEntries_entries {α : Type} {p : Record.Part α} {r : Record}
    (own : r.map Prod.fst = p.attributes.map (·.name))
    (plain : ∀ k ∈ p.attributes.map (·.name), Name.snake k = k)
    (distinct : (p.attributes.map (·.name)).Nodup) :
    attributeEntries p [] (entries r) = .ok (entries r) := by
  have whole : attributeEntries p (entries []) (entries r) = .ok (entries ([] ++ r)) := by
    refine attributeEntries_from ?_ ?_
    · intro k member
      rw [own] at member
      obtain ⟨a, inside, rfl⟩ := List.mem_map.1 member
      exact ⟨plain _ member, List.any_eq_true.2 ⟨a, inside, beq_self_eq_true _⟩⟩
    · rw [List.nil_append, own]
      exact distinct
  exact whole

theorem sectionEntries_ofRecord (what : String) (r : Record) :
    sectionEntries what (.ofRecord r) = .ok (entries r) :=
  rfl

theorem membersOf_list (vs : List Value) : membersOf (.list vs) = .ok vs := by
  cases vs <;> rfl

theorem trimmedText_text {s : String} (trimmed : Text.Trimmed s) :
    trimmedText (.text s) = .ok s := by
  by_cases empty : s = ""
  · subst empty
    rfl
  · have same : Text.trim s = s := trimmed
    simp [trimmedText, Value.given?, Value.isGiven, empty, Except.map, same]

/-! ## The application, settings and enumerations -/

theorem appOf_record {a : App} (plain : a.fakerMappings = none) :
    appOf (entries a.record) = .ok a := by
  have own : attributeEntries appPart [] (entries a.record) = .ok (entries a.record) :=
    attributeEntries_entries rfl (by decide +kernel) (by decide +kernel)
  rw [appOf, own, ok_bind, Record.Part.read, appPart_record plain]
  rfl

theorem settings_entries (s : EntitySettings) :
    attributeEntries settingsPart [] (entries s.record) = .ok (entries s.record) :=
  attributeEntries_entries rfl (by decide +kernel) (by decide +kernel)

theorem settings_record (s : EntitySettings) : settingsPart.read (entries s.record) = .ok s := by
  rw [Record.Part.read, settingsPart_record]
  rfl

theorem enumOf_record {e : EnumDefinition} (trimmed : Text.Trimmed e.name)
    (made : enumPart.ofRecord e.record = .ok e) : enumOf (.ofRecord e.record) = .ok e := by
  have name : Value.find (entries e.record) "name" = .text e.name := by
    simp [find_entries, EnumDefinition.record]
  have values : Value.find (entries e.record) "values" = .list (e.values.map .text) := by
    simp [find_entries, EnumDefinition.record, List.lookup_cons, Value.ofTexts]
  have same : (e.values.map Value.text).mapM textOf = .ok e.values :=
    mapM_map fun s _ => textOf_text s
  rw [enumOf, sectionEntries_ofRecord]
  simp only [ok_bind, name, values, membersOf_list, trimmedText_text trimmed, same]
  show (enumPart.ofRecord e.record).mapError _ = _
  rw [made]
  rfl

/-! ## Fields -/

theorem fieldTypeOf_label (scalars : ScalarTable) (enums : List EnumDefinition)
    (entity field : String) (t : FieldType) :
    fieldTypeOf scalars enums entity field (.text t.label) = .ok (some t) := by
  have filled : t.label.isEmpty = false := by cases t <;> decide +kernel
  have trimmed : Text.trim t.label = t.label := by cases t <;> decide +kernel
  simp [fieldTypeOf, typeNamed, filled, trimmed, FieldType.ofLabel?_label]

/-- Since the type of an enumeration is called like no enumeration, it gives no values. -/
theorem fieldEnum?_label {enums : List EnumDefinition} (apart : ∀ e ∈ enums, e.name ≠ "enum")
    (t : FieldType) : fieldEnum? enums (some t) (.text t.label) = none := by
  unfold fieldEnum?
  by_cases enum : t = .enum
  · subst enum
    have base : TypeExpr.base FieldType.enum.label = "enum" := by decide +kernel
    have absent : enumNamed? enums "enum" = none := by
      refine List.find?_eq_none.2 fun e member => ?_
      simpa using apart e (List.mem_reverse.1 member)
    simp [Value.toText, base, absent]
  · simp [enum]

theorem fieldOf_record {enums : List EnumDefinition} (apart : ∀ e ∈ enums, e.name ≠ "enum")
    (scalars : ScalarTable) (entity : String) {f : Field} (declared : f.Declared) :
    fieldOf scalars enums entity (.ofRecord f.record) = .ok f := by
  obtain ⟨t, typed⟩ := Option.ne_none_iff_exists'.1 declared.typed
  have name : Value.find (entries f.record) "name" = .text f.name := by
    simp [find_entries, Field.record]
  have type : Value.find (entries f.record) "type" = .text t.label := by
    simp [find_entries, Field.record, List.lookup_cons, typed, Value.ofText?]
  have nullable : Value.find (entries f.record) "nullable" = .bool f.nullable := by
    simp [find_entries, Field.record, List.lookup_cons]
  have required : Value.find? (entries f.record) "required" = some (.bool f.required) := by
    simp [Field.record, List.lookup_cons]
  -- The attributes that are taken as they are stand behind the first four, in the same order.
  have plain : plainAttributes.filterMap (fun key =>
      (Value.find? (entries f.record) key).map fun v => (key, v)) = f.record.drop 4 := by
    simp [plainAttributes, Field.record, List.lookup_cons]
  rw [fieldOf, sectionEntries_ofRecord]
  simp only [bind, Except.bind, name, type, nullable, required, plain, fieldTypeOf_label,
    fieldEnum?_label apart, trimmedText_text declared.trimmed, Value.isGiven]
  have whole : [("name", Value.text f.name), ("type", .ofText? (some t.label)),
      ("nullable", .bool f.nullable), ("required", .bool f.required)] ++ f.record.drop 4 =
        f.record := by
    rw [Field.record, typed]
    rfl
  have sized : ∀ n ∈ f.length, 1 ≤ n := by
    rw [declared.length]
    rintro n ⟨⟩
  rw [Option.map_some, whole, ofRecord_of_readEntries (fieldPart_record sized)]
  rfl

/-! ## Relations -/

/-- The draft of a relation's own pieces. -/
def ofRelation (defaultLocalKey : String) (r : Relation) : Draft String where
  defaultLocalKey := defaultLocalKey
  type := r.type
  owner := some r.owner
  target := r.target
  foreignKey := r.foreignKey
  localKey := r.localKey
  relatedKey := r.relatedKey
  name := some r.name
  morphName := r.morphName
  pivotTable := r.pivotTable
  cascade := r.cascade

/-- A piece that has been filled in stays when it is filled in once more. -/
private theorem refill (given other : Option String) :
    (Relation.filled? (Relation.filled? given <|> other) <|> other) =
      (Relation.filled? given <|> other) := by
  cases same : Relation.filled? given with
  | some text => simp [Relation.filled?_some (Relation.filled?_eq_some.1 same).2]
  | none =>
    cases other with
    | none => rfl
    | some text =>
      by_cases empty : text = ""
      · simp [empty]
      · simp [Relation.filled?_some empty]

private theorem refill_getD (given : Option String) (other : String) :
    (Relation.filled? (some ((Relation.filled? given).getD other))).getD other =
      (Relation.filled? given).getD other := by
  cases same : Relation.filled? given with
  | some text => simp [Relation.filled?_some (Relation.filled?_eq_some.1 same).2]
  | none =>
    by_cases empty : other = ""
    · simp [empty]
    · simp [Relation.filled?_some empty]

/-- A default that has been filled in stays whatever the default is later, unless it is empty. -/
private theorem refill_default {key key' : String} (keyed : key = "" → key' = "")
    (given : Option String) :
    (Relation.filled? (Relation.filled? given <|> some key) <|> some key') =
      (Relation.filled? given <|> some key) := by
  by_cases empty : key = ""
  · rw [keyed empty, empty]
    exact refill given (some "")
  · have filled : Relation.filled? (Relation.filled? given <|> some key) ≠ none :=
      Relation.filled?_orElse empty
    obtain ⟨text, same⟩ := Option.ne_none_iff_exists'.1 filled
    rw [same]
    exact (Relation.filled?_eq_some.1 same).1.symm

section
variable {key key' : String} (keyed : key = "" → key' = "")
include keyed

/-- A relation that was filled in by convention is filled in the same way from its own pieces. -/
theorem fill_ofRelation {d : Draft String} (default : d.defaultLocalKey = key)
    {type : RelationType} {owner target : String} (added : d.inferred = false) :
    (ofRelation key' (d.fill type owner target)).fill type owner target =
      d.fill type owner target := by
  simp only [Draft.fill, ofRelation, refill, refill_getD, added, default, refill_default keyed]

theorem build_ofRelation {owner : String} {r : Relation} (named : owner ≠ "")
    (declared : r.Declared key owner) : (ofRelation key' r).build = .ok r := by
  obtain ⟨d, type, target, rfl, rfl, added, -, needed⟩ := declared.filled
  have aimed : (Relation.filled? (some target)).getD "" = target := by
    by_cases empty : target = ""
    · rw [empty]
      rfl
    · rw [Relation.filled?_some empty, Option.getD_some]
  have ends : (ofRelation key' (d.fill type owner target)).ends = .ok (type, owner, target) :=
    Draft.ends_eq_ok.2 ⟨rfl, Relation.filled?_some named, aimed, needed.1⟩
  exact Draft.build_eq_ok.2 ⟨type, owner, target, ends, fill_ofRelation keyed rfl added⟩

end

theorem relationTypeOf_label (entity : String) (t : RelationType) :
    relationTypeOf entity (.text t.label) = .ok (some t) := by
  have filled : t.label.isEmpty = false := by cases t <;> decide +kernel
  have trimmed : Text.trim t.label = t.label := by cases t <;> decide +kernel
  simp [relationTypeOf, Value.given?, Value.isGiven, filled, ok_bind, trimmed,
    RelationType.ofLabel?_label]

private theorem piece?_given (s : Option String) :
    piece? (some ((Value.ofText? s).given?.getD .null)) = piece? (s.map .text) := by
  cases s with
  | none => rfl
  | some text =>
    by_cases empty : text = "" <;>
      simp [piece?, Value.ofText?, Value.given?, Value.isGiven, empty]

private theorem target_read {defaultLocalKey owner : String} {r : Relation}
    (declared : r.Declared defaultLocalKey owner) :
    ∃ name, trimmedText (.ofText? r.target) = .ok name ∧
      Relation.filled? (some name) = r.target := by
  cases leads : r.target with
  | none => exact ⟨"", rfl, rfl⟩
  | some target =>
    exact ⟨target, trimmedText_text (declared.target_trimmed leads),
      Relation.filled?_some (declared.target_filled leads)⟩

private theorem target_kept {defaultLocalKey owner : String} {r : Relation}
    (declared : r.Declared defaultLocalKey owner) :
    Relation.filled? (r.target.map Text.trim) = r.target := by
  cases leads : r.target with
  | none => rfl
  | some target =>
    have same : Text.trim target = target := declared.target_trimmed leads
    simp [same, Relation.filled?_some (declared.target_filled leads)]

theorem givenPieces_draftOf {key owner : String} {r : Relation} {type : RelationType}
    (trimmed : Text.Trimmed owner) (typed : r.type = some type)
    (declared : r.Declared key owner) (key' : String) :
    givenPieces (draftOf key' owner type r.target (entries (relationRecord r))) =
      givenPieces ((ofRelation key' r).map .text) := by
  have owns : Text.trim owner = r.owner := by
    rw [declared.owned]
    exact trimmed
  simp [givenPieces, draftOf, ofRelation, Draft.map, Draft.withOwner, Draft.withTarget, pivotOf,
    find_entries, relationRecord, Relation.record, relationKey, relationKeys, List.lookup_cons,
    piece?_ofText?, piece?_given, typed, target_kept declared, owns, Value.isGiven]

theorem relationOf_record {key key' owner : String} {r : Relation} (keyed : key = "" → key' = "")
    (trimmed : Text.Trimmed owner) (named : owner ≠ "") (declared : r.Declared key owner) :
    relationOf key' owner (.ofRecord (relationRecord r)) = .ok r := by
  obtain ⟨type, typed⟩ := Option.ne_none_iff_exists'.1 declared.typed
  have givenType : Value.find (entries (relationRecord r)) "type" = .text type.label := by
    simp [find_entries, relationRecord, Relation.record, relationKey, relationKeys, List.lookup_cons,
      typed, Value.ofText?]
  have givenTarget : Value.find (entries (relationRecord r)) "entity" = .ofText? r.target := by
    simp [find_entries, relationRecord, Relation.record, relationKey, relationKeys, List.lookup_cons]
  have whole : (type.requiresTarget && r.target.isNone) = false := by
    by_cases needed : type = .morphTo
    · subst needed
      rfl
    · have leads : r.target ≠ none := declared.target_iff.2 (by simpa [typed] using needed)
      simp [Option.isSome_iff_ne_none.2 leads]
  -- Building looks at the given pieces only, and those are the relation's own ones.
  have built : buildSketch (draftOf key' owner type r.target
      (entries (relationRecord r))) = .ok r := by
    have same := givenPieces_draftOf trimmed typed declared key'
    have done := buildSketch_eq_ok.2 (build_ofRelation keyed named declared)
    unfold buildSketch at done ⊢
    dsimp only at done ⊢
    rwa [same]
  obtain ⟨name, given, aimed⟩ := target_read declared
  rw [relationOf, sectionEntries_ofRecord]
  simp only [ok_bind, givenType, givenTarget, given, aimed, relationTypeOf_label, whole, built]
  rfl

/-! ## Entities -/

/-- An entity whose dump is read back: a declared one that does not name the empty table. -/
structure Readable (defaultLocalKey : String) (e : Entity) : Prop where
  declared : e.Declared defaultLocalKey
  tabled : e.table ≠ some ""

theorem entityPart_shell (name : String) (table : Option String) :
    entityPart.ofRecord [("name", .text name), ("table", .ofText? table)] =
      .ok { name := name, table := table } := by
  refine ofRecord_of_readEntries (readEntries_entries ?_ ?_)
  · simp [entityPart, Attribute.optional]
  · simp [entityPart, Attribute.optional, Record.Part.readAttributes, Record.Part.readAttribute,
      List.lookup_cons, Except.map]

theorem entityOf_record {key key' : String} {enums : List EnumDefinition} {e : Entity}
    (keyed : key = "" → key' = "") (apart : ∀ e ∈ enums, e.name ≠ "enum")
    (readable : Readable key e) (scalars : ScalarTable) :
    entityOf scalars key' enums (.ofRecord (entityRecord e)) = .ok e := by
  have declared := readable.declared
  have trimmed := declared.word.trimmed
  have name : Value.find (entries (entityRecord e)) "name" = .text e.name := by
    simp [find_entries, entityRecord]
  have table : ((Value.find (entries (entityRecord e)) "table").given?).getD .null =
      .ofText? e.table := by
    have given : Value.find (entries (entityRecord e)) "table" = .ofText? e.table := by
      simp [find_entries, entityRecord, List.lookup_cons]
    rw [given]
    cases same : e.table with
    | none => rfl
    | some text =>
      have filled : text ≠ "" := fun empty => readable.tabled (by rw [same, empty])
      simp [Value.ofText?, Value.given?, Value.isGiven, filled]
  have fields : Value.find (entries (entityRecord e)) "fields" =
      .list (e.fields.map fun f => .ofRecord f.record) := by
    simp [find_entries, entityRecord, List.lookup_cons]
  have relations : Value.find (entries (entityRecord e)) "relations" =
      .list (e.relations.map fun r => .ofRecord (relationRecord r)) := by
    simp [find_entries, entityRecord, List.lookup_cons]
  have settings : Value.find (entries (entityRecord e)) "settings" =
      .ofRecord e.settings.record := by
    simp [find_entries, entityRecord, List.lookup_cons]
  have fieldsRead : (e.fields.map fun f => Value.ofRecord f.record).mapM
      (fieldOf scalars enums e.name) = .ok e.fields :=
    mapM_map fun f member => fieldOf_record apart scalars e.name (declared.fields f member)
  have relationsRead : (e.relations.map fun r => Value.ofRecord (relationRecord r)).mapM
      (relationOf key' e.name) = .ok e.relations :=
    mapM_map fun r member =>
      relationOf_record keyed trimmed declared.word.ne_empty (declared.relations r member)
  rw [entityOf, sectionEntries_ofRecord]
  simp only [bind, Except.bind, name, table, fields, relations, settings, trimmedText_text trimmed,
    sectionEntries_ofRecord, settings_entries, settings_record, membersOf_list, Except.mapError,
    entityPart_shell, fieldsRead, relationsRead]
  rfl

/-! ## Dumps -/

/-- What is read back from its dump: an application that makes nothing up, enumerations that have
    other names than the type of their fields, and entities that name no empty table. -/
structure ReadableContents (defaultLocalKey : String) (c : Contents) : Prop where
  plain : c.app.fakerMappings = none
  enums : ∀ e ∈ c.enums, Text.Trimmed e.name ∧ e.name ≠ "enum" ∧
    enumPart.ofRecord e.record = .ok e
  entities : ∀ e ∈ c.entities, Readable defaultLocalKey e

/-- The document of a dump says what the graph was made of. -/
theorem read_contentsRecord {key key' : String} {c : Contents} (keyed : key = "" → key' = "")
    (readable : ReadableContents key c) (scalars : ScalarTable) :
    read scalars key' (.mapping (entries (contentsRecord c))) = .ok c := by
  have apart : ∀ e ∈ c.enums, e.name ≠ "enum" := fun e member => (readable.enums e member).2.1
  have app : Value.find (entries (contentsRecord c)) "app" = .ofRecord c.app.record := by
    simp [find_entries, contentsRecord]
  have enums : Value.find (entries (contentsRecord c)) "enums" =
      .list (c.enums.map fun e => .ofRecord e.record) := by
    simp [find_entries, contentsRecord, List.lookup_cons]
  have entities : Value.find (entries (contentsRecord c)) "entities" =
      .list (c.entities.map fun e => .ofRecord (entityRecord e)) := by
    simp [find_entries, contentsRecord, List.lookup_cons]
  have enumsRead : (c.enums.map fun e => Value.ofRecord e.record).mapM enumOf = .ok c.enums := by
    refine mapM_map fun e member => ?_
    obtain ⟨trimmed, -, made⟩ := readable.enums e member
    exact enumOf_record trimmed made
  have entitiesRead : (c.entities.map fun e => Value.ofRecord (entityRecord e)).mapM
      (entityOf scalars key' c.enums) = .ok c.entities :=
    mapM_map fun e member => entityOf_record keyed apart (readable.entities e member) scalars
  have plainApp : (Value.ofRecord c.app.record).plain = .mapping (entries c.app.record) := rfl
  have plainList : ∀ vs, (Value.list vs).plain = .list vs := fun _ => rfl
  simp only [read, app, enums, entities, plainApp, plainList, bind, Except.bind,
    appOf_record readable.plain, membersOf_list, enumsRead, entitiesRead]
  rfl

end Document

end EntityGraph
