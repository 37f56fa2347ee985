import EntityGraph.Graph.Field
import EntityGraph.Graph.Relation

/-!
Entities: named things with fields and relations.
-/
namespace EntityGraph

/-- How an entity is presented. -/
structure EntitySettings where
  hasAvatar : Bool := false
  isSearchable : Bool := true
  hasImages : Bool := false
  deriving DecidableEq, Repr

/-- The attributes of the settings. -/
def EntitySettings.record (s : EntitySettings) : Record := [
  ("has_avatar", .bool s.hasAvatar),
  ("is_searchable", .bool s.isSearchable),
  ("has_images", .bool s.hasImages)]

/-- The setting of a name. -/
def EntitySettings.get? (s : EntitySettings) (name : String) : Option Value :=
  s.record.lookup name

/-- An entity. -/
structure Entity where
  name : String := ""
  /-- The table, if it is not the one that the name gives. -/
  table : Option String := none
  fields : List Field := []
  relations : List Relation := []
  settings : EntitySettings := {}

namespace Entity

/-- The table of an entity: the given one, or the plural of its name. -/
def tableName (e : Entity) : String :=
  (Relation.filled? e.table).getD (Name.snake (Name.plural e.name))

/-- The attributes of an entity, the derived table name included. -/
def record (e : Entity) : Record := [
  ("name", .text e.name),
  ("table", .ofText? e.table),
  ("fields", .list (e.fields.map fun f => .ofRecord f.record)),
  ("relations", .list (e.relations.map fun r => .ofRecord r.record)),
  ("settings", .ofRecord e.settings.record),
  ("table_name", .text e.tableName)]

/-- The plural of an entity's name. -/
def pluralName (e : Entity) : String :=
  Name.plural e.name

/-- The key by which others refer to an entity. -/
def foreignKey (e : Entity) : String :=
  Name.snake e.name ++ "_id"

/-- The names of the fields. -/
def fieldNames (e : Entity) : List String :=
  e.fields.map Field.name

/-- The first field of a name. -/
def getField? (e : Entity) (name : String) : Option Field :=
  e.fields.find? (·.name == name)

/-- Whether there is a field of a name. -/
def hasField (e : Entity) (name : String) : Bool :=
  e.fields.any (·.name == name)

/-- An entity with one more field. -/
def addField (e : Entity) (f : Field) : Entity :=
  { e with fields := e.fields ++ [f] }

/-- An entity with one more relation. -/
def addRelation (e : Entity) (r : Relation) : Entity :=
  { e with relations := e.relations ++ [r] }

/-- The first relation of a name. -/
def getRelation? (e : Entity) (name : String) : Option Relation :=
  e.relations.find? (·.name == name)

/-- The relations of some types. -/
def relationsOfType (e : Entity) (types : List RelationType) : List Relation :=
  e.relations.filter fun r => r.type.any types.contains

/-- The fields that are filled in by themselves: the key and the time stamps. -/
def automaticFields : List String := ["id", "created_at", "updated_at"]

/-- The fields whose values are secret. -/
def secretFields : List String := ["password", "remember_token"]

/-- The fields that a caller may fill in. -/
def fillableFields (e : Entity) : List Field :=
  e.fields.filter fun f => !automaticFields.contains f.name

/-- The fields that are not shown: those that say so, and secrets. -/
def hiddenFields (e : Entity) : List Field :=
  e.fields.filter fun f => f.hidden || secretFields.contains f.name

/-- The fields that listings can be searched by. -/
def searchableFields (e : Entity) : List Field :=
  e.fields.filter Field.searchable

/-- The fields that listings can be sorted by. -/
def sortableFields (e : Entity) : List Field :=
  e.fields.filter Field.sortable

/-- The display of an entity. -/
def display (e : Entity) : String :=
  "<Entity " ++ e.name ++ " (" ++ toString e.fields.length ++ " fields, " ++
    toString e.relations.length ++ " relations)>"

end Entity

end EntityGraph
