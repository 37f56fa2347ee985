import EntityGraph.Graph.Basic
import EntityGraph.Graph.Draft

/-!
The check of a graph. The entities of the list are visited in order and the first fault ends the
check. On the way the graph is completed: foreign keys get their fields, and relations get the
relations that lead back. What has been added stays when a later fault ends the check, so an outcome
has the graph as well as the fault.
-/
namespace EntityGraph

/-- What is wrong with a graph. A relation is called by its name, or by its number if it has
    none. -/
inductive CheckFault where
  | entityUnnamed (number : Nat)
  | entityRepeated (entity : String)
  | fieldsMissing (entity : String)
  | fieldUnnamed (entity : String) (number : Nat)
  | fieldUntyped (entity field : String)
  | relationUntyped (entity relation : String)
  | targetUnset (entity relation : String) (type : RelationType)
  | targetUnknown (entity relation target : String)
  | keyMissing (entity relation : String) (type : RelationType)
  | inverseMissing (entity relation target : String)
  | pivotMissing (entity relation : String)
  /-- The relation that leads back cannot be built. -/
  | inverseUnset (f : DraftFault String)
  deriving DecidableEq, Repr

/-- The message about a fault. -/
def CheckFault.message : CheckFault → String
  | entityUnnamed number => "Entity name is required (entity #" ++ toString number ++ ")."
  | entityRepeated entity => "Duplicate entity name '" ++ entity ++ "'."
  | fieldsMissing entity => "Entity '" ++ entity ++ "' must have at least one field."
  | fieldUnnamed entity number =>
    "Field #" ++ toString number ++ " of entity '" ++ entity ++ "' has no name."
  | fieldUntyped entity field =>
    "Field '" ++ field ++ "' of entity '" ++ entity ++ "' has no type."
  | relationUntyped entity relation =>
    "Relation '" ++ relation ++ "' of entity '" ++ entity ++ "' has no type."
  | targetUnset entity _ type => DraftFault.targetMessage type entity
  | targetUnknown entity relation target =>
    "Relation '" ++ relation ++ "' of entity '" ++ entity ++ "' refers to unknown entity '" ++
      target ++ "'."
  | keyMissing entity relation type =>
    "Foreign key is required for " ++ type.label ++ " relation '" ++ relation ++ "' in entity '" ++
      entity ++ "'."
  | inverseMissing entity relation target =>
    "Entity '" ++ target ++ "' must declare a hasOne or hasMany relation to '" ++ entity ++
      "' as the inverse of '" ++ entity ++ "." ++ relation ++ "' (belongsTo)."
  | pivotMissing entity relation =>
    "Pivot table is required for belongsToMany relation '" ++ relation ++ "' in entity '" ++
      entity ++ "'."
  | inverseUnset f => f.message

/-- What a check leaves: the graph as far as it was completed, and the fault that ended it. -/
structure Outcome where
  graph : Graph
  fault : Option CheckFault

namespace Outcome

/-- A graph without a fault so far. -/
def clean (g : Graph) : Outcome := ⟨g, none⟩

/-- A fault. -/
def failed (g : Graph) (f : CheckFault) : Outcome := ⟨g, some f⟩

/-- Goes on with the graph unless there is a fault. -/
def andThen (o : Outcome) (next : Graph → Outcome) : Outcome :=
  match o.fault with
  | none => next o.graph
  | some _ => o

end Outcome

namespace Check

/-! ## Parts by themselves -/

/-- What a relation is called. -/
def relationLabel (r : Relation) (position : Nat) : String :=
  if r.name.isEmpty then "#" ++ toString (position + 1) else r.name

/-- The first fault of some fields of an entity, from a position on. -/
def fieldFault? (entity : String) : (position : Nat) → List Field → Option CheckFault
  | _, [] => none
  | position, f :: rest =>
    if f.name.isEmpty then some (.fieldUnnamed entity (position + 1))
    else if f.type.isNone then some (.fieldUntyped entity f.name)
    else fieldFault? entity (position + 1) rest

/-- The first relation without a type. -/
def typeFault? (entity : String) : (position : Nat) → List Relation → Option CheckFault
  | _, [] => none
  | position, r :: rest =>
    if r.type.isNone then some (.relationUntyped entity (relationLabel r position))
    else typeFault? entity (position + 1) rest

/-- The first fault of an entity by itself, given the names of those before it. -/
def entityFault? (seen : List String) (position : Nat) (e : Entity) : Option CheckFault :=
  if e.name.isEmpty then some (.entityUnnamed (position + 1))
  else if seen.contains e.name then some (.entityRepeated e.name)
  else if e.fields.isEmpty then some (.fieldsMissing e.name)
  else (fieldFault? e.name 0 e.fields).or (typeFault? e.name 0 e.relations)

/-! ## Completion -/

/-- A field that refers to an entity as a foreign key. -/
def keyField (nullable : Bool) (key target : String) : Field :=
  { name := key, type := some .foreignId, nullable := nullable, required := !nullable,
    belongsTo := some target }

/-- Fields in which the first one of a name refers to an entity, unless it refers to one
    already. -/
def referTo (key target : String) : List Field → List Field
  | [] => []
  | f :: rest =>
    if f.name = key then
      (if f.belongsTo.isNone then { f with belongsTo := some target } else f) :: rest
    else f :: referTo key target rest

/-- An entity with a field for a foreign key: the one of that name, or a new one. -/
def withKeyField (nullable : Bool) (key target : String) (e : Entity) : Entity :=
  if e.hasField key then { e with fields := referTo key target e.fields }
  else e.addField (keyField nullable key target)

/-- Whether an entity has a relation of one of the types that leads to the entity of a name. -/
def leadsTo (e : Entity) (types : List RelationType) (name : String) : Bool :=
  (e.relationsOfType types).any (·.pointsTo name)

/-- Whether an entity has a many-to-many relation through a table to the entity of a name. -/
def leadsThrough (e : Entity) (pivot name : String) : Bool :=
  (e.relationsOfType [.belongsToMany]).any fun r => r.pivotTable == some pivot && r.pointsTo name

/-- The draft of the relation that leads back from the target of a relation to its owner. -/
def inverseDraft (options : GraphOptions) (type : RelationType) (owner target : String)
    (foreignKey relatedKey localKey pivotTable : Option String) : Draft String :=
  let draft : Draft String := {
    defaultLocalKey := options.defaultLocalKey
    type := some type
    foreignKey := foreignKey
    localKey := localKey
    relatedKey := relatedKey
    pivotTable := pivotTable
    inferred := true }
  (draft.withOwner (some owner)).withTarget (some target)

/-- Adds the relation of a draft to the entity at a place. -/
def addInverse (g : Graph) (place : Nat) (d : Draft String) : Outcome :=
  match d.build with
  | .ok r => .clean (g.modifyEntity place (·.addRelation r))
  | .error f => .failed g (.inverseUnset f)

/-! ## Relations -/

/-- A relation on its way through the check: where its owner stands, and what it is called. -/
structure Visit where
  place : Nat
  entity : String
  relation : Relation
  label : String

/-- Checks a relation to the entity that its owner belongs to. That entity has to say so too. -/
def checkBelongsTo (v : Visit) (g : Graph) (target : Entity) : Outcome :=
  match Relation.filled? v.relation.foreignKey with
  | none => .failed g (.keyMissing v.entity v.label .belongsTo)
  | some key =>
    if leadsTo target [.hasOne, .hasMany] v.entity then
      .clean (g.modifyEntity v.place (withKeyField g.options.foreignKeyNullable key target.name))
    else .failed g (.inverseMissing v.entity v.label target.name)

/-- Checks a relation to entities that belong to its owner, and adds what leads back. -/
def checkHas (type : RelationType) (v : Visit) (g : Graph) (place : Nat) (target : Entity) :
    Outcome :=
  match Relation.filled? v.relation.foreignKey with
  | none => .failed g (.keyMissing v.entity v.label type)
  | some key =>
    let g := g.modifyEntity place (withKeyField g.options.foreignKeyNullable key v.entity)
    if leadsTo target [.belongsTo] v.entity then .clean g
    else addInverse g place (inverseDraft g.options .belongsTo target.name v.entity (some key) none
      v.relation.localKey none)

/-- Checks a many-to-many relation, and adds the one that leads back through the same table. -/
def checkBelongsToMany (v : Visit) (g : Graph) (place : Nat) (target : Entity) : Outcome :=
  match Relation.filled? v.relation.pivotTable with
  | none => .failed g (.pivotMissing v.entity v.label)
  | some pivot =>
    if leadsThrough target pivot v.entity then .clean g
    else addInverse g place (inverseDraft g.options .belongsToMany target.name v.entity
      v.relation.relatedKey v.relation.foreignKey v.relation.localKey (some pivot))

/-- Checks a relation with its target. Polymorphic relations are taken as they are. -/
def checkWithTarget (type : RelationType) (v : Visit) (g : Graph) (place : Nat)
    (target : Entity) : Outcome :=
  match type with
  | .belongsTo => checkBelongsTo v g target
  | .hasOne | .hasMany => checkHas type v g place target
  | .belongsToMany => checkBelongsToMany v g place target
  | _ => .clean g

/-- Checks a relation. -/
def checkRelation (v : Visit) (g : Graph) : Outcome :=
  match v.relation.type with
  | none => .failed g (.relationUntyped v.entity v.label)
  | some type =>
    if type.requiresTarget then
      match Relation.filled? v.relation.target with
      | none => .failed g (.targetUnset v.entity v.label type)
      | some name =>
        match g.locate? name with
        | none => .failed g (.targetUnknown v.entity v.label name)
        | some place =>
          match g.store[place]? with
          | none => .failed g (.targetUnknown v.entity v.label name)
          | some target => checkWithTarget type v g place target
    else .clean g

/-- Checks relations of the entity at a place, from a position on. -/
def checkRelations (place : Nat) (entity : String) :
    (position : Nat) → List Relation → Graph → Outcome
  | _, [], g => .clean g
  | position, r :: rest, g =>
    (checkRelation ⟨place, entity, r, relationLabel r position⟩ g).andThen
      (checkRelations place entity (position + 1) rest)

/-! ## Entities -/

/-- Checks the entity at a place, which is at a position in the list, with the relations that it has
    when its turn comes. -/
def checkEntity (seen : List String) (position place : Nat) (e : Entity) (g : Graph) : Outcome :=
  match entityFault? seen position e with
  | some f => .failed g f
  | none => checkRelations place e.name 0 e.relations g

/-- Checks the entities at some places, which are listed from a position on. -/
def checkEntities : (places : List Nat) → (position : Nat) → (seen : List String) → Graph → Outcome
  | [], _, _, g => .clean g
  | place :: rest, position, seen, g =>
    match g.store[place]? with
    | none => checkEntities rest position seen g
    | some e => (checkEntity seen position place e g).andThen
        (checkEntities rest (position + 1) (seen ++ [e.name]))

end Check

/-- Freezes, checks and completes a graph. -/
def Graph.check (g : Graph) : Outcome :=
  let g := g.freeze
  Check.checkEntities g.order 0 [] g

/-- The check of a graph under the options that it had when the check was set up. -/
def Graph.checkUnder (g : Graph) (options : GraphOptions) : Outcome :=
  let o := { g with options := options }.check
  { o with graph := { o.graph with options := g.options } }

/-- The display of the check of a graph. -/
def Graph.checkDisplay (g : Graph) : String :=
  "<GraphValidator " ++ toString g.entities.length ++ " entities>"

end EntityGraph
