import EntityGraph.Graph.App
import EntityGraph.Graph.Entity

/-!
Graphs: an application with its entities and enumerations. Callers hold on to entities and change
them, so an entity is told by its place in a store and not by what it says: it keeps that place
whatever it is called and wherever it is listed. Freezing a graph builds the index that names are
looked up in; later changes of a name or of the list do not reach the index.
-/
namespace EntityGraph

/-- A graph. -/
structure Graph where
  app : App := {}
  /-- The entities at hand, each at a place of its own for good. -/
  store : List Entity := []
  /-- The list of the graph's entities, by their places. -/
  order : List Nat := List.range store.length
  enums : List EnumDefinition := []
  options : GraphOptions := {}
  /-- There once the graph is frozen: for each name the place of the entity that had it first in the
      list then. -/
  index : Option (List (String × Nat)) := none

/-- A frozen graph takes no more entities. -/
structure FrozenFault where
  entity : String
  deriving DecidableEq, Repr

/-- The message about an entity that a frozen graph does not take. -/
def FrozenFault.message (f : FrozenFault) : String :=
  "Cannot add entity '" ++ f.entity ++ "': the configuration is already initialised."

namespace Graph

/-! ## Entities -/

/-- The entities of the list. -/
def entities (g : Graph) : List Entity :=
  g.order.filterMap (g.store[·]?)

private theorem filterMap_range_getElem? {α : Type} (xs : List α) (n : Nat) :
    (List.range n).filterMap (xs[·]?) = xs.take n := by
  induction n with
  | zero => simp
  | succ n ih =>
    rw [List.range_succ, List.filterMap_append, ih, List.take_add_one]
    cases found : xs[n]? <;> simp [found]

/-- A graph with all its entities in order has no others in its list. -/
theorem entities_of_order {g : Graph} (order : g.order = List.range g.store.length) :
    g.entities = g.store := by
  rw [entities, order, filterMap_range_getElem?, List.take_length]

/-- The names of the entities of the list. -/
def entityNames (g : Graph) : List String :=
  g.entities.map Entity.name

/-- The names of the entities of the list, each with the place of its entity. -/
def namedPlaces (g : Graph) : List (String × Nat) :=
  g.order.filterMap fun place => (g.store[place]?).map fun e => (e.name, place)

/-- Whether an entity of the given name is at a place. -/
def isNamed (g : Graph) (name : String) (place : Nat) : Bool :=
  (g.store[place]?).any (·.name == name)

/-- Changes the entity at a place. -/
def modifyEntity (g : Graph) (place : Nat) (f : Entity → Entity) : Graph :=
  { g with store := g.store.modify place f }

/-- The graph with new entities as its list. -/
def withEntities (g : Graph) (es : List Entity) : Graph :=
  { g with store := g.store ++ es, order := List.range' g.store.length es.length }

/-! ## The index -/

/-- Whether a graph is frozen. -/
def isFrozen (g : Graph) : Bool :=
  g.index.isSome

/-- The first entry of each name. -/
def firstEntries : List (String × Nat) → List (String × Nat)
  | [] => []
  | entry :: rest => entry :: (firstEntries rest).filter (·.1 != entry.1)

/-- Freezes a graph; a frozen graph stays as it is. -/
def freeze (g : Graph) : Graph :=
  match g.index with
  | some _ => g
  | none => { g with index := some (firstEntries g.namedPlaces) }

theorem freeze_of_frozen {g : Graph} {index : List (String × Nat)}
    (frozen : g.index = some index) : g.freeze = g := by
  rw [freeze, frozen]

/-- The place of the entity of a name: by the index, or by the names in the list as they are if
    there is no index yet. The empty name is nobody's. -/
def locate? (g : Graph) (name : String) : Option Nat :=
  if name.isEmpty then none
  else match g.index with
    | some index => index.lookup name
    | none => g.order.find? (g.isNamed name)

/-- The entity of a name, which the list may have lost since the graph has been frozen. -/
def getEntity? (g : Graph) (name : String) : Option Entity :=
  (g.locate? name).bind (g.store[·]?)

private theorem lookup_filter_ne {α : Type} {name other : String} (differ : name ≠ other)
    (entries : List (String × α)) :
    (entries.filter (·.1 != other)).lookup name = entries.lookup name := by
  induction entries with
  | nil => rfl
  | cons entry rest ih =>
    obtain ⟨key, a⟩ := entry
    by_cases same : key = other
    · have later : (name == key) = false := by simpa [same] using differ
      rw [List.filter_cons_of_neg (by simp [same]), ih, List.lookup_cons, later]
    · rw [List.filter_cons_of_pos (by simpa using same), List.lookup_cons, List.lookup_cons, ih]

/-- Of several entries of a name an index has the first one. -/
theorem lookup_firstEntries (entries : List (String × Nat)) (name : String) :
    (firstEntries entries).lookup name = entries.lookup name := by
  induction entries with
  | nil => rfl
  | cons entry rest ih =>
    obtain ⟨first, place⟩ := entry
    rw [firstEntries, List.lookup_cons, List.lookup_cons]
    by_cases same : name = first
    · simp [same]
    · have later : (name == first) = false := by simpa using same
      rw [later, lookup_filter_ne same, ih]

/-- The names of the list have the places that a search through the list finds. -/
theorem lookup_namedPlaces (g : Graph) (name : String) :
    g.namedPlaces.lookup name = g.order.find? (g.isNamed name) := by
  rw [namedPlaces]
  induction g.order with
  | nil => rfl
  | cons place rest ih =>
    cases found : g.store[place]? with
    | none =>
      have unnamed : ¬ g.isNamed name place = true := by simp [isNamed, found]
      rw [List.filterMap_cons_none (by rw [found]; rfl), List.find?_cons_of_neg unnamed, ih]
    | some e =>
      rw [List.filterMap_cons_some (by rw [found]; rfl), List.lookup_cons, List.find?_cons]
      by_cases same : e.name = name
      · simp [isNamed, found, same]
      · have differ : (name == e.name) = false := by simpa using Ne.symm same
        have differ' : (e.name == name) = false := by simpa using same
        simp [isNamed, found, differ, differ', ih]

theorem namedPlaces_congr {g g' : Graph} (order : g'.order = g.order)
    (names : ∀ place : Nat,
      (g'.store[place]?).map Entity.name = (g.store[place]?).map Entity.name) :
    g'.namedPlaces = g.namedPlaces := by
  rw [namedPlaces, namedPlaces, order]
  congr 1
  funext place
  have same := congrArg (Option.map (·, place)) (names place)
  rwa [Option.map_map, Option.map_map] at same

/-- Graphs with the same list of places, the same names there and the same index have the same
    entity for a name. -/
theorem locate?_congr {g g' : Graph} (order : g'.order = g.order)
    (names : ∀ place : Nat, (g'.store[place]?).map Entity.name = (g.store[place]?).map Entity.name)
    (index : g'.index = g.index) (name : String) : g'.locate? name = g.locate? name := by
  have named : g'.isNamed name = g.isNamed name := by
    funext place
    have same := congrArg (Option.any (· == name)) (names place)
    rwa [Option.any_map, Option.any_map] at same
  rw [locate?, locate?, index, order, named]

/-! ## Relations -/

/-- The place of the target of a relation. -/
def locateTarget? (g : Graph) (r : Relation) : Option Nat :=
  r.target.bind g.locate?

/-- The target of a relation. -/
def target? (g : Graph) (r : Relation) : Option Entity :=
  (g.locateTarget? r).bind (g.store[·]?)

/-- The first relation of a relation's target that leads back to its owner. -/
def inverse? (g : Graph) (r : Relation) : Option Relation :=
  (g.target? r).bind fun e => e.relations.find? (·.pointsTo r.owner)

/-! ## What else a graph has to say -/

/-- The enumeration of a name. -/
def getEnum? (g : Graph) (name : String) : Option EnumDefinition :=
  g.enums.find? (·.name == name)

/-- What the caller knows about the entity of a name. -/
def metaFor (g : Graph) (name : String) : Record :=
  (g.options.entityMeta.lookup name).getD []

/-- The name of an entity with the qualifier of the run. -/
def qualifiedName (g : Graph) (e : Entity) : String :=
  g.options.qualifier ++ "." ++ e.name

/-- The attributes of a graph without its options. -/
def record (g : Graph) : Record := [
  ("app", .ofRecord g.app.record),
  ("entities", .list (g.entities.map fun e => .ofRecord e.record)),
  ("enums", .list (g.enums.map fun e => .ofRecord e.record))]

/-- The attributes of a graph. -/
def fullRecord (g : Graph) : Record :=
  g.record ++ [("options", .ofRecord g.options.record)]

/-- The display of a graph. -/
def display (g : Graph) : String :=
  "<Config " ++ Text.quoted g.app.name ++ " " ++ toString g.entities.length ++ " entities, " ++
    toString g.enums.length ++ " enums>"

end Graph

end EntityGraph
