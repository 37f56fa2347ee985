import EntityGraph.Catalog.RelationType
import EntityGraph.Name.Plural

/-!
Conventions: the names that the pieces of a relation have unless something else is given. They
follow from the type of the relation and the names of its two entities.
-/
namespace EntityGraph.Convention

/-- What the columns of a polymorphic relation are named after. -/
def morphName? (type : RelationType) (owner target : String) : Option String :=
  if type = .morphTo then some (Name.snake owner ++ "able")
  else if type.isPolymorphic then some (Name.snake target ++ "able")
  else none

/-- The name of the relation: its target, in the plural if there may be many. -/
def relationName (type : RelationType) (owner target : String) : String :=
  if type = .morphTo then Name.snake owner
  else if type.isToMany then Name.plural (Name.camel target)
  else Name.camel target

/-- The foreign key of a polymorphic relation, given what its columns are named after. -/
def morphKey (morph : String) : String :=
  morph ++ "_id"

/-- The foreign key of a relation that is not polymorphic: it names the entity that is referred
    to. -/
def foreignKey (type : RelationType) (owner target : String) : String :=
  if type = .belongsTo then Name.snake target ++ "_id" else Name.snake owner ++ "_id"

/-- The key of the target in a pivot table. -/
def relatedKey? (type : RelationType) (target : String) : Option String :=
  if type = .belongsToMany then some (Name.snake target ++ "_id") else none

/-- The table that keeps the pairs of two entities: both names in order. -/
def pivotTable (owner target : String) : String :=
  let a := Name.snake owner
  let b := Name.snake target
  if b < a then b ++ "_" ++ a else a ++ "_" ++ b

theorem pivotTable_comm (owner target : String) :
    pivotTable owner target = pivotTable target owner := by
  simp only [pivotTable]
  split <;> split
  · rename_i h h'; exact absurd h' (String.lt_asymm h)
  · rfl
  · rfl
  · rename_i h h'
    rw [String.le_antisymm (String.not_lt.1 h) (String.not_lt.1 h')]

end EntityGraph.Convention
