import EntityGraph.Graph.Convention
import EntityGraph.Graph.Relation
import EntityGraph.Text.Blank

/-!
Drafts of relations. A draft collects pieces in any order; building it fills every piece that was
not given by convention. The pieces are of a type `α`: texts here, and values that have yet to be
accepted as texts where a caller or a document gives them.
-/
namespace EntityGraph

/-- The pieces of a relation so far. -/
structure Draft (α : Type) where
  /-- The local key if none is given. -/
  defaultLocalKey : String := "id"
  type : Option RelationType := none
  owner : Option String := none
  target : Option String := none
  foreignKey : Option α := none
  localKey : Option α := none
  relatedKey : Option α := none
  name : Option α := none
  morphName : Option α := none
  pivotTable : Option α := none
  cascade : Bool := false
  inferred : Bool := false

/-- Why a draft is no relation yet. -/
inductive DraftFault (α : Type) where
  | typeUnset (owner : Option String)
  | ownerUnset (type : RelationType)
  | targetUnset (type : RelationType) (owner : String) (name : Option α)
  deriving DecidableEq, Repr

namespace DraftFault

variable {α : Type}

/-- A fault with its piece changed. -/
def map {β : Type} (f : α → β) : DraftFault α → DraftFault β
  | typeUnset owner => .typeUnset owner
  | ownerUnset type => .ownerUnset type
  | targetUnset type owner name => .targetUnset type owner (name.map f)

/-- The message about a relation without a target. -/
def targetMessage (type : RelationType) (owner : String) : String :=
  "Entity name is not set for relation of type " ++ type.label ++ " in entity " ++ owner

/-- The message about a draft. -/
def message : DraftFault α → String
  | typeUnset owner =>
    "Relation type is not set for relation in entity " ++ owner.getD "None"
  | ownerUnset type => "Local entity is not set for relation of type " ++ type.label
  | targetUnset type owner _ => targetMessage type owner

end DraftFault

namespace Draft

variable {α : Type}

/-- A draft with its pieces changed. -/
def map {β : Type} (f : α → β) (d : Draft α) : Draft β where
  defaultLocalKey := d.defaultLocalKey
  type := d.type
  owner := d.owner
  target := d.target
  foreignKey := d.foreignKey.map f
  localKey := d.localKey.map f
  relatedKey := d.relatedKey.map f
  name := d.name.map f
  morphName := d.morphName.map f
  pivotTable := d.pivotTable.map f
  cascade := d.cascade
  inferred := d.inferred

/-- The draft with an owner; blanks around its name are dropped. -/
def withOwner (d : Draft α) (name : Option String) : Draft α :=
  { d with owner := name.map Text.trim }

/-- The draft with a target; blanks around its name are dropped, and an empty name is none. -/
def withTarget (d : Draft α) (name : Option String) : Draft α :=
  { d with target := Relation.filled? (name.map Text.trim) }

/-- The type, the owner and the target of a draft, the empty name for a target that is not
    needed. -/
def ends (d : Draft α) : Except (DraftFault α) (RelationType × String × String) :=
  match d.type with
  | none => .error (.typeUnset d.owner)
  | some type =>
    match Relation.filled? d.owner with
    | none => .error (.ownerUnset type)
    | some owner =>
      let target := d.target.getD ""
      if type.requiresTarget && target.isEmpty then .error (.targetUnset type owner d.name)
      else .ok (type, owner, target)

/-- The display of a draft. -/
def display (d : Draft α) : String :=
  "<RelationBuilder " ++ d.owner.getD "None" ++ " " ++
    ((d.type.map RelationType.label).getD "?") ++ " " ++ d.target.getD "None" ++ ">"

/-- The relation of the given ends with what is missing filled in by convention. Empty texts count
    as missing. -/
def fill (d : Draft String) (type : RelationType) (owner target : String) : Relation :=
  let morph := Relation.filled? d.morphName <|> Convention.morphName? type owner target
  let foreignKey := if type.isPolymorphic then morph.map Convention.morphKey
    else some (Convention.foreignKey type owner target)
  let pivot := if !type.requiresPivot then none
    else if type.isPolymorphic then morph.map Name.plural
    else some (Convention.pivotTable owner target)
  { type := some type
    owner := owner
    target := Relation.filled? (some target)
    foreignKey := Relation.filled? d.foreignKey <|> foreignKey
    localKey := Relation.filled? d.localKey <|> some d.defaultLocalKey
    relatedKey := Relation.filled? d.relatedKey <|> Convention.relatedKey? type target
    name := (Relation.filled? d.name).getD (Convention.relationName type owner target)
    morphName := morph
    pivotTable := Relation.filled? d.pivotTable <|> pivot
    cascade := d.cascade
    inferred := d.inferred }

/-- Builds the relation of a draft. -/
def build (d : Draft String) : Except (DraftFault String) Relation :=
  d.ends.map fun (type, owner, target) => d.fill type owner target

end Draft

end EntityGraph
