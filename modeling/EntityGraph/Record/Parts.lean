import EntityGraph.Graph.Basic
import EntityGraph.Record.Attribute

/-!
The parts of a graph with their attributes: names, what values they take, and in which order their
faults are reported.
-/
namespace EntityGraph.Record

open Attribute (optional mandatory)

/-- Names that every part has besides its attributes. -/
def commonDerived : List String := ["model_extra", "model_fields_set"]

/-- Metadata of the application. -/
def appPart : Part App where
  title := "App"
  blank := {}
  attributes := [
    optional "name" acceptText fun x a => { a with name := x },
    optional "description" (orNull acceptText) fun x a => { a with description := x },
    optional "capabilities" (acceptList acceptText) fun x a => { a with capabilities := x },
    optional "seed_enabled" acceptFlag fun x a => { a with seedEnabled := x },
    optional "seed_count" (acceptCount 0) fun x a => { a with seedCount := x },
    optional "faker_mappings" (orNull (acceptMapping acceptAny))
      fun x a => { a with fakerMappings := x },
    optional "strong_passwords" acceptFlag fun x a => { a with strongPasswords := x },
    optional "dev_mode" acceptFlag fun x a => { a with devMode := x }]
  derived := commonDerived
  fixed := false

/-- The texts of a list that occur more than once, each once, in ascending order. -/
def repeatedTexts (xs : List String) : List String :=
  let repeated := xs.filter fun x => 1 < xs.count x
  repeated.eraseDups.mergeSort fun a b => !(b < a)

/-- Takes the values of an enumeration: at least one, and none twice. -/
def acceptEnumValues : Acceptor (List String) := fun v => do
  let xs ← acceptList acceptText v
  if xs.isEmpty then refuse .listTooShort
  else match repeatedTexts xs with
    | [] => .ok xs
    | repeated => refuse (.repeated repeated)

/-- Enumerations. -/
def enumPart : Part EnumDefinition where
  title := "EnumDefinition"
  blank := ⟨"", []⟩
  attributes := [
    mandatory "name" acceptFilledText fun x e => { e with name := x },
    mandatory "values" acceptEnumValues fun x e => { e with values := x }]
  derived := commonDerived
  fixed := false

/-- Fields. -/
def fieldPart : Part Field where
  title := "Field"
  blank := {}
  attributes := [
    optional "name" acceptText fun x f => { f with name := x },
    optional "type" (orNull (acceptMember FieldType.ofLabel?)) fun x f => { f with type := x },
    optional "nullable" acceptFlag fun x f => { f with nullable := x },
    optional "required" acceptFlag fun x f => { f with required := x },
    optional "sometimes" acceptFlag fun x f => { f with sometimes := x },
    optional "sortable" acceptFlag fun x f => { f with sortable := x },
    optional "searchable" acceptFlag fun x f => { f with searchable := x },
    optional "unique" acceptFlag fun x f => { f with unique := x },
    optional "hidden" acceptFlag fun x f => { f with hidden := x },
    optional "default" acceptAny fun x f => { f with default := x },
    optional "min" (orNull acceptWhole) fun x f => { f with min := x },
    optional "max" (orNull acceptWhole) fun x f => { f with max := x },
    optional "values" (acceptList acceptText) fun x f => { f with values := x },
    optional "length" (orNull (acceptCount 1)) fun x f => { f with length := x },
    optional "precision" (orNull (acceptCount 0)) fun x f => { f with precision := x },
    optional "scale" (orNull (acceptCount 0)) fun x f => { f with scale := x },
    optional "comment" (orNull acceptText) fun x f => { f with comment := x },
    optional "belongs_to" (orNull acceptText) fun x f => { f with belongsTo := x }]
  derived := ["title", "is_enum", "is_temporal", "is_foreign_key"] ++ commonDerived
  fixed := false

/-- Relations. -/
def relationPart : Part Relation where
  title := "Relation"
  blank := {}
  attributes := [
    optional "type" (orNull (acceptMember RelationType.ofLabel?)) fun x r => { r with type := x },
    optional "local_entity" acceptText fun x r => { r with owner := x },
    optional "related_entity_name" (orNull acceptText) fun x r => { r with target := x },
    optional "foreign_key" (orNull acceptText) fun x r => { r with foreignKey := x },
    optional "local_key" (orNull acceptText) fun x r => { r with localKey := x },
    optional "related_key" (orNull acceptText) fun x r => { r with relatedKey := x },
    optional "relation_name" acceptText fun x r => { r with name := x },
    optional "morph_name" (orNull acceptText) fun x r => { r with morphName := x },
    optional "pivot_table" (orNull acceptText) fun x r => { r with pivotTable := x },
    optional "cascade" acceptFlag fun x r => { r with cascade := x },
    optional "inferred" acceptFlag fun x r => { r with inferred := x }]
  derived := ["is_polymorphic", "requires_pivot_table", "requires_related_entity_name",
    "morph_type_key", "morph_id_key", "has_route", "api_path"] ++ commonDerived
  fixed := false

/-- Settings of entities. -/
def settingsPart : Part EntitySettings where
  title := "EntitySettings"
  blank := {}
  attributes := [
    optional "has_avatar" acceptFlag fun x s => { s with hasAvatar := x },
    optional "is_searchable" acceptFlag fun x s => { s with isSearchable := x },
    optional "has_images" acceptFlag fun x s => { s with hasImages := x }]
  derived := commonDerived
  fixed := false

/-- Entities. -/
def entityPart : Part Entity where
  title := "Entity"
  blank := {}
  attributes := [
    optional "name" acceptText fun x e => { e with name := x },
    optional "table" (orNull acceptText) fun x e => { e with table := x },
    optional "fields" (acceptList fieldPart.accept) fun x e => { e with fields := x },
    optional "relations" (acceptList relationPart.accept) fun x e => { e with relations := x },
    optional "settings" settingsPart.accept fun x e => { e with settings := x }]
  derived := ["table_name", "plural_name", "foreign_key", "field_names", "fillable_fields",
    "hidden_fields", "searchable_fields", "sortable_fields"] ++ commonDerived
  fixed := false

/-- Options of a run. -/
def optionsPart : Part GraphOptions where
  title := "GraphOptions"
  blank := {}
  attributes := [
    optional "namespace" acceptFilledText fun x o => { o with qualifier := x },
    optional "default_local_key" acceptFilledText fun x o => { o with defaultLocalKey := x },
    optional "foreign_key_nullable" acceptFlag fun x o => { o with foreignKeyNullable := x },
    optional "entity_meta" (acceptMapping (acceptMapping acceptAny))
      fun x o => { o with entityMeta := x }]
  derived := commonDerived
  fixed := true

/-- Graphs. -/
def graphPart : Part Graph where
  title := "Config"
  blank := {}
  attributes := [
    optional "app" appPart.accept fun x g => { g with app := x },
    optional "entities" (acceptList entityPart.accept) fun x g => g.withEntities x,
    optional "enums" (acceptList enumPart.accept) fun x g => { g with enums := x },
    optional "options" optionsPart.accept fun x g => { g with options := x }]
  derived := ["is_initialized", "entity_names"] ++ commonDerived
  fixed := false

end EntityGraph.Record
