import EntityGraph.Graph.Record
import EntityGraph.Text.Quoted

/-!
What describes the application as a whole: its metadata, the enumerations its fields may use, and
the options of a run.
-/
namespace EntityGraph

/-- The metadata of the application. -/
structure App where
  name : String := ""
  description : Option String := none
  capabilities : List String := []
  seedEnabled : Bool := false
  seedCount : Nat := 20
  fakerMappings : Option Record := none
  strongPasswords : Bool := false
  devMode : Bool := false

/-- The attributes of the metadata. -/
def App.record (a : App) : Record := [
  ("name", .text a.name),
  ("description", .ofText? a.description),
  ("capabilities", .ofTexts a.capabilities),
  ("seed_enabled", .bool a.seedEnabled),
  ("seed_count", .int a.seedCount),
  ("faker_mappings", match a.fakerMappings with
    | none => .null
    | some r => .ofRecord r),
  ("strong_passwords", .bool a.strongPasswords),
  ("dev_mode", .bool a.devMode)]

/-- A named set of texts that a field may be restricted to. -/
structure EnumDefinition where
  name : String
  values : List String
  deriving DecidableEq, Repr

namespace EnumDefinition

/-- The attributes of an enumeration. -/
def record (e : EnumDefinition) : Record :=
  [("name", .text e.name), ("values", .ofTexts e.values)]

/-- The display of an enumeration. -/
def display (e : EnumDefinition) : String :=
  "<Enum " ++ e.name ++ " (" ++ toString e.values.length ++ " values)>"

end EnumDefinition

/-- The options of a run. -/
structure GraphOptions where
  /-- What stands in front of the names of entities. -/
  qualifier : String := "app"
  /-- The key of an entity that relations refer to unless they say otherwise. -/
  defaultLocalKey : String := "id"
  /-- Whether foreign key fields that are added allow null. -/
  foreignKeyNullable : Bool := true
  /-- What the caller knows about entities, by name. -/
  entityMeta : List (String × Record) := []

/-- The attributes of the options. -/
def GraphOptions.record (o : GraphOptions) : Record := [
  ("namespace", .text o.qualifier),
  ("default_local_key", .text o.defaultLocalKey),
  ("foreign_key_nullable", .bool o.foreignKeyNullable),
  ("entity_meta", .ofRecord (o.entityMeta.map fun (k, r) => (k, .ofRecord r)))]

end EntityGraph
