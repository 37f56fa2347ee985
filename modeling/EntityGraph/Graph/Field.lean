import EntityGraph.Catalog.FieldType
import EntityGraph.Graph.Record
import EntityGraph.Name.Words

/-!
Fields: the single attributes of an entity.
-/
namespace EntityGraph

/-- A field. The name and the type may be missing; checking a graph refuses such a field. -/
structure Field where
  name : String := ""
  type : Option FieldType := none
  nullable : Bool := false
  required : Bool := false
  sometimes : Bool := false
  sortable : Bool := false
  searchable : Bool := false
  unique : Bool := false
  hidden : Bool := false
  default : Value := .null
  min : Option Int := none
  max : Option Int := none
  values : List String := []
  length : Option Nat := none
  precision : Option Nat := none
  scale : Option Nat := none
  comment : Option String := none
  /-- The entity that the field refers to as a foreign key. -/
  belongsTo : Option String := none

namespace Field

/-- The attributes of a field. -/
def record (f : Field) : Record := [
  ("name", .text f.name),
  ("type", .ofText? (f.type.map FieldType.label)),
  ("nullable", .bool f.nullable),
  ("required", .bool f.required),
  ("sometimes", .bool f.sometimes),
  ("sortable", .bool f.sortable),
  ("searchable", .bool f.searchable),
  ("unique", .bool f.unique),
  ("hidden", .bool f.hidden),
  ("default", f.default),
  ("min", .ofInt? f.min),
  ("max", .ofInt? f.max),
  ("values", .ofTexts f.values),
  ("length", .ofInt? (f.length.map Int.ofNat)),
  ("precision", .ofInt? (f.precision.map Int.ofNat)),
  ("scale", .ofInt? (f.scale.map Int.ofNat)),
  ("comment", .ofText? f.comment),
  ("belongs_to", .ofText? f.belongsTo)]

/-- The title of a field: `created_at` gives `Created At`. -/
def title (f : Field) : String :=
  Name.title f.name

/-- A field whose values are those of an enumeration. -/
def isEnum (f : Field) : Bool :=
  f.type == some .enum

/-- A field whose values are points or periods of time. -/
def isTemporal (f : Field) : Bool :=
  f.type.any FieldType.isTemporal

/-- A field that refers to another entity. -/
def isForeignKey (f : Field) : Bool :=
  f.type == some .foreignId || f.belongsTo.isSome

/-- The display of a field. -/
def display (f : Field) : String :=
  "<Field " ++ f.name ++ " " ++ ((f.type.map FieldType.label).getD "?") ++
    (if f.nullable then " NULL>" else " NOT NULL>")

end Field

end EntityGraph
