import EntityGraph.Catalog.TypeExpr
import EntityGraph.Graph.Contents
import EntityGraph.Record.Sketch

/-!
The contents of a document: a mapping with the metadata under `app`, entities under `entities` and
enumerations under `enums`. Keys that are not known are passed over. A relation that lacks its type
or its target is kept as it is, so that checking the graph can report it.
-/
namespace EntityGraph.Document

/-- Why a document has no contents. -/
inductive DocumentFault where
  | topLevel (kind : String)
  | appMissing
  | entitiesMissing
  | notMapping (what kind : String)
  /-- Something that should have members has none. -/
  | noMembers
  /-- A number that stands for a text has too many digits to be written. -/
  | overlong
  | appInvalid (i : Record.Invalid)
  | enumInvalid (name : String) (i : Record.Invalid)
  | entityInvalid (entity : String) (i : Record.Invalid)
  | typeUnknown (type entity field : String)
  | fieldInvalid (entity field : String) (i : Record.Invalid)
  | relationTypeUnknown (type entity : String)
  | relation (f : Record.SketchFault)

/-! ## Reading entries -/

/-- The entries of a section: null has none. -/
def sectionEntries (what : String) (v : Value) : Except DocumentFault Entries :=
  match v.plain with
  | .null => .ok []
  | .mapping es => .ok es
  | v => .error (.notMapping what v.kindName)

/-- The members of a value that is given; none otherwise. -/
def membersOf (v : Value) : Except DocumentFault (List Value) :=
  match v.given? with
  | none => .ok []
  | some v => match v.members? with
    | some vs => .ok vs
    | none => .error .noMembers

/-- The text of a value. -/
def textOf (v : Value) : Except DocumentFault String :=
  match v.writtenText? with
  | some s => .ok s
  | none => .error .overlong

/-- The text of a value that is given, without blanks around it. -/
def trimmedText (v : Value) : Except DocumentFault String :=
  match v.given? with
  | none => .ok ""
  | some v => (textOf v).map Text.trim

/-- Entries under the names of attributes; those that no attribute has are dropped. -/
def attributeEntries {α : Type} (p : Record.Part α) :
    Entries → Entries → Except DocumentFault Entries
  | done, [] => .ok done
  | done, (k, v) :: rest => do
    let name := Name.snake (← textOf k)
    if p.attributes.any (·.name == name)
    then attributeEntries p (Value.putEntry done (.text name) v) rest
    else attributeEntries p done rest

/-! ## The application and enumerations -/

/-- The metadata of the application. -/
def appOf (es : Entries) : Except DocumentFault App := do
  let given ← attributeEntries Record.appPart [] es
  (Record.appPart.read given).mapError .appInvalid

/-- An enumeration. -/
def enumOf (v : Value) : Except DocumentFault EnumDefinition := do
  let item ← sectionEntries "enum" v
  let name ← trimmedText (Value.find item "name")
  let values ← (← membersOf (Value.find item "values")).mapM textOf
  let record : Record := [("name", .text name), ("values", .ofTexts values)]
  (Record.enumPart.ofRecord record).mapError (.enumInvalid (Value.find item "name").toText)

/-- The enumeration of a name; of several the last one. -/
def enumNamed? (enums : List EnumDefinition) (name : String) : Option EnumDefinition :=
  enums.reverse.find? (·.name == name)

/-! ## Fields -/

/-- The type that a token names: a field type, a scalar, or an enumeration. -/
def typeNamed (scalars : ScalarTable) (enums : List EnumDefinition) (entity field token : String) :
    Except DocumentFault (Option FieldType) :=
  match FieldType.ofLabel? token with
  | some t => .ok (some t)
  | none => match TypeExpr.scalarType? scalars token with
    | some t => .ok (some t)
    | none =>
      if (enumNamed? enums (TypeExpr.base token)).isSome then .ok (some .enum)
      else .error (.typeUnknown token entity field)

/-- The type of a field, if one is given. -/
def fieldTypeOf (scalars : ScalarTable) (enums : List EnumDefinition) (entity field : String)
    (raw : Value) : Except DocumentFault (Option FieldType) :=
  match raw with
  | .null => .ok none
  | .text s => if s.isEmpty then .ok none else typeNamed scalars enums entity field (Text.trim s)
  | v => do typeNamed scalars enums entity field (Text.trim (← textOf v))

/-- The attributes of a field that are taken as they are. -/
def plainAttributes : List String := [
  "sometimes", "sortable", "searchable", "unique", "hidden", "default", "min", "max", "values",
  "length", "precision", "scale", "comment", "belongs_to"]

/-- The enumeration that a field takes its values from. -/
def fieldEnum? (enums : List EnumDefinition) (type : Option FieldType) (raw : Value) :
    Option EnumDefinition :=
  if type == some .enum && raw.isGiven then enumNamed? enums (TypeExpr.base raw.toText) else none

/-- A field. One with the type of an enumeration takes its values from there unless it lists
    some. -/
def fieldOf (scalars : ScalarTable) (enums : List EnumDefinition) (entity : String) (v : Value) :
    Except DocumentFault Field := do
  let item ← sectionEntries ("field of entity '" ++ entity ++ "'") v
  let name ← trimmedText (Value.find item "name")
  let raw := Value.find item "type"
  let type ← fieldTypeOf scalars enums entity name raw
  let nullable := (Value.find item "nullable").isGiven
  let required := match Value.find? item "required" with
    | some v => v.isGiven
    | none => !nullable
  let plain : Record := plainAttributes.filterMap fun key =>
    (Value.find? item key).map fun v => (key, v)
  let listed := ((plain.lookup "values").bind Value.given?).isSome
  let filled : Record := match fieldEnum? enums type raw with
    | some e =>
      if listed then plain
      else plain.filter (·.1 != "values") ++ [("values", .ofTexts e.values)]
    | none => plain
  let record : Record := [
    ("name", .text name), ("type", .ofText? (type.map FieldType.label)),
    ("nullable", .bool nullable), ("required", .bool required)] ++ filled
  (Record.fieldPart.ofRecord record).mapError (.fieldInvalid entity name)

/-! ## Relations -/

/-- The type of a relation, if one is given. -/
def relationTypeOf (entity : String) (raw : Value) :
    Except DocumentFault (Option RelationType) :=
  match raw.given? with
  | none => .ok none
  | some v => do
    let s ← textOf v
    match RelationType.ofLabel? (Text.trim s) with
    | some t => .ok (some t)
    | none => .error (.relationTypeUnknown s entity)

/-- The table of a relation, under either of its names. -/
def pivotOf (item : Entries) : Value :=
  ((Value.find item "pivot").given?).getD (Value.find item "pivot_table")

/-- A relation that lacks its type or its target. -/
def incompleteRelation (entity : String) (type : Option RelationType) (target : Option String)
    (item : Entries) : Except DocumentFault Relation :=
  let record : Record := [
    ("type", .ofText? (type.map RelationType.label)),
    ("local_entity", .text entity),
    ("related_entity_name", .ofText? target),
    ("relation_name", ((Value.find item "name").given?).getD (.text "")),
    ("foreign_key", Value.find item "foreign_key"),
    ("pivot_table", pivotOf item)]
  (Record.relationPart.ofRecord record).mapError fun i => .relation (.invalid i)

/-- The draft of a relation. -/
def draftOf (defaultLocalKey entity : String) (type : RelationType) (target : Option String)
    (item : Entries) : Draft Value :=
  let draft : Draft Value := {
    defaultLocalKey := defaultLocalKey
    type := some type
    foreignKey := Value.find? item "foreign_key"
    localKey := Value.find? item "local_key"
    relatedKey := Value.find? item "related_key"
    name := Value.find? item "name"
    morphName := Value.find? item "morph_name"
    pivotTable := some (pivotOf item)
    cascade := (Value.find item "cascade").isGiven }
  (draft.withOwner (some entity)).withTarget target

/-- A relation. -/
def relationOf (defaultLocalKey entity : String) (v : Value) : Except DocumentFault Relation := do
  let item ← sectionEntries ("relation of entity '" ++ entity ++ "'") v
  let target := Relation.filled? (some (← trimmedText (Value.find item "entity")))
  let type ← relationTypeOf entity (Value.find item "type")
  match type with
  | none => incompleteRelation entity none target item
  | some type =>
    if type.requiresTarget && target.isNone then incompleteRelation entity (some type) none item
    else (Record.buildSketch (draftOf defaultLocalKey entity type target item)).mapError .relation

/-! ## Entities -/

/-- An entity. -/
def entityOf (scalars : ScalarTable) (defaultLocalKey : String) (enums : List EnumDefinition)
    (v : Value) : Except DocumentFault Entity := do
  let item ← sectionEntries "entity" v
  let name ← trimmedText (Value.find item "name")
  let section_ ← sectionEntries ("settings of entity '" ++ name ++ "'") (Value.find item "settings")
  let given ← attributeEntries Record.settingsPart [] section_
  let settings ← (Record.settingsPart.read given).mapError (.entityInvalid name)
  let record : Record := [
    ("name", .text name),
    ("table", ((Value.find item "table").given?).getD .null)]
  let shell ← (Record.entityPart.ofRecord record).mapError (.entityInvalid name)
  let fields ← (← membersOf (Value.find item "fields")).mapM (fieldOf scalars enums name)
  let relations ← (← membersOf (Value.find item "relations")).mapM
    (relationOf defaultLocalKey name)
  return { shell with fields := fields, relations := relations, settings := settings }

/-- The contents of a document. -/
def read (scalars : ScalarTable) (defaultLocalKey : String) (v : Value) :
    Except DocumentFault Contents := do
  match v with
  | .mapping es =>
    match (Value.find es "app").plain, (Value.find es "entities").plain with
    | .mapping appEntries, .list members =>
      let app ← appOf appEntries
      let enums ← (← membersOf (Value.find es "enums")).mapM enumOf
      let entities ← members.mapM (entityOf scalars defaultLocalKey enums)
      return ⟨app, entities, enums⟩
    | .mapping _, _ => throw .entitiesMissing
    | _, _ => throw .appMissing
  | v => throw (.topLevel v.kindName)

end EntityGraph.Document
