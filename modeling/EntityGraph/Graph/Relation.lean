import EntityGraph.Catalog.RelationType
import EntityGraph.Graph.Record
import EntityGraph.Name.Plural

/-!
Relations: how the rows of one entity refer to the rows of another. A relation names its owner and
its target; which entities those are is looked up in a graph.
-/
namespace EntityGraph

/-- A relation. The type and the target may be missing; checking a graph refuses such a relation,
    except that `morphTo` needs no target. -/
structure Relation where
  type : Option RelationType := none
  /-- The name of the entity that has the relation. -/
  owner : String := ""
  /-- The name of the entity that the relation leads to. -/
  target : Option String := none
  foreignKey : Option String := none
  localKey : Option String := none
  /-- The key of the target in the pivot table. -/
  relatedKey : Option String := none
  name : String := ""
  /-- What the columns of a polymorphic relation are named after. -/
  morphName : Option String := none
  pivotTable : Option String := none
  cascade : Bool := false
  /-- Whether checking a graph has added the relation. -/
  inferred : Bool := false
  deriving DecidableEq, Repr

namespace Relation

/-- The attributes of a relation. -/
def record (r : Relation) : Record := [
  ("type", .ofText? (r.type.map RelationType.label)),
  ("local_entity", .text r.owner),
  ("related_entity_name", .ofText? r.target),
  ("foreign_key", .ofText? r.foreignKey),
  ("local_key", .ofText? r.localKey),
  ("related_key", .ofText? r.relatedKey),
  ("relation_name", .text r.name),
  ("morph_name", .ofText? r.morphName),
  ("pivot_table", .ofText? r.pivotTable),
  ("cascade", .bool r.cascade),
  ("inferred", .bool r.inferred)]

/-- A relation whose ends are told apart by a discriminator column. -/
def isPolymorphic (r : Relation) : Bool :=
  r.type.any RelationType.isPolymorphic

/-- A relation that keeps its pairs in a junction table. -/
def requiresPivot (r : Relation) : Bool :=
  r.type.any RelationType.requiresPivot

/-- A relation that needs a target; one without a type does. -/
def requiresTarget (r : Relation) : Bool :=
  r.type.all RelationType.requiresTarget

/-- A relation whose targets are listed under the owner's path. -/
def hasRoute (r : Relation) : Bool :=
  r.type.any RelationType.hasRoute

/-- A text, unless it is missing or empty. -/
def filled? (s : Option String) : Option String :=
  s.filter (!·.isEmpty)

/-- The discriminator column. -/
def morphTypeKey? (r : Relation) : Option String :=
  (filled? r.morphName).map (· ++ "_type")

/-- The key column beside the discriminator. -/
def morphIdKey? (r : Relation) : Option String :=
  (filled? r.morphName).map (· ++ "_id")

/-- The part of a path that stands for the relation: `blogPosts` gives `blog-posts`. -/
def apiPath (r : Relation) : String :=
  Name.kebab (Name.plural r.name)

/-- Whether a relation leads to the entity of a name. -/
def pointsTo (r : Relation) (entity : String) : Bool :=
  r.target == some entity

/-- A key with its mark in a description. -/
def keyNote (mark : String) (key : Option String) : List String :=
  ((filled? key).map fun k => mark ++ ": " ++ k).toList

/-- A relation on one line: `User → hasMany(posts) → Post [FK: user_id, LK: id]`. -/
def describe (r : Relation) : String :=
  let keys := keyNote "FK" r.foreignKey ++ keyNote "LK" r.localKey ++ keyNote "RK" r.relatedKey ++
    keyNote "PIVOT" r.pivotTable
  r.owner ++ " → " ++ ((r.type.map RelationType.label).getD "?") ++ "(" ++ r.name ++ ") → " ++
    ((filled? r.target).getD "N/A") ++ " [" ++ ", ".intercalate keys ++ "]"

/-- The display of a relation. -/
def display (r : Relation) : String :=
  "<Relation " ++ r.describe ++ ">"

end Relation

end EntityGraph
