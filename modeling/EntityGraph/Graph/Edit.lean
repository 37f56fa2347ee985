import EntityGraph.Graph.Check
import EntityGraph.Record.Parts

/-!
Edits: what callers do to a graph that they have at hand. Entities are given by their places in the
store, in the list or not; fields and relations by their positions. An edit that is refused leaves
the graph as it is; of the others only a check that ends at a fault both changes the graph and
reports something.
-/
namespace EntityGraph

/-- What a caller does to a graph. -/
inductive Edit where
  | freeze
  | check
  /-- Checks the graph under options that it had before. -/
  | checkUnder (options : GraphOptions)
  /-- Makes an entity, which is in no list yet. -/
  | make (e : Entity)
  /-- Adds an entity to the list; a frozen graph refuses it. -/
  | add (place : Nat)
  /-- Puts an entity behind the others of the list, whether the graph is frozen or not. -/
  | append (place : Nat)
  /-- Sets the list of entities, whether the graph is frozen or not. -/
  | setEntities (places : List Nat)
  | addField (place : Nat) (f : Field)
  | addRelation (place : Nat) (r : Relation)
  /-- Sets an attribute of an entity. -/
  | setEntity (place : Nat) (name : String) (v : Value)
  /-- Sets an attribute of a field of an entity. -/
  | setField (place position : Nat) (name : String) (v : Value)
  /-- Sets an attribute of a relation of an entity. -/
  | setRelation (place position : Nat) (name : String) (v : Value)
  | setApp (a : App)
  | setEnums (es : List EnumDefinition)
  | setOptions (o : GraphOptions)

/-- Why an edit reports something. -/
inductive EditFault where
  | frozen (f : FrozenFault)
  | check (f : CheckFault)
  | assign (f : Record.AssignFault)
  /-- Nothing stands at a place. -/
  | missing
  deriving DecidableEq, Repr

namespace Edit

/-- The change of the entity at a place, unless it is refused. -/
def change (g : Graph) (place : Nat) (f : Entity → Except EditFault Entity) :
    Graph × Option EditFault :=
  match g.store[place]? with
  | none => (g, some .missing)
  | some e => match f e with
    | .ok e => (g.modifyEntity place fun _ => e, none)
    | .error fault => (g, some fault)

/-- A list with the member at a position changed, unless that is refused. -/
def changeMember {α : Type} (xs : List α) (position : Nat)
    (f : α → Except Record.AssignFault α) : Except EditFault (List α) :=
  match xs[position]? with
  | none => .error .missing
  | some x => ((f x).mapError .assign).map (xs.set position)

/-- The graph with the entities at some places as its list, if there is one at each of them. -/
def relist (g : Graph) (places : List Nat) : Graph × Option EditFault :=
  if places.all (· < g.store.length) then ({ g with order := places }, none)
  else (g, some .missing)

/-- What an edit leaves of a graph, and what it reports. -/
def apply : Edit → Graph → Graph × Option EditFault
  | freeze, g => (g.freeze, none)
  | check, g => (g.check.graph, g.check.fault.map .check)
  | checkUnder options, g =>
    ((g.checkUnder options).graph, (g.checkUnder options).fault.map .check)
  | make e, g => ({ g with store := g.store ++ [e] }, none)
  | add place, g => match g.store[place]? with
    | none => (g, some .missing)
    | some e => if g.isFrozen then (g, some (.frozen ⟨e.name⟩)) else relist g (g.order ++ [place])
  | append place, g => relist g (g.order ++ [place])
  | setEntities places, g => relist g places
  | addField place f, g => change g place fun e => .ok (e.addField f)
  | addRelation place r, g => change g place fun e => .ok (e.addRelation r)
  | setEntity place name v, g => change g place fun e =>
    (Record.entityPart.assign name v e).mapError .assign
  | setField place position name v, g => change g place fun e =>
    (changeMember e.fields position (Record.fieldPart.assign name v)).map
      fun fields => { e with fields := fields }
  | setRelation place position name v, g => change g place fun e =>
    (changeMember e.relations position (Record.relationPart.assign name v)).map
      fun relations => { e with relations := relations }
  | setApp a, g => ({ g with app := a }, none)
  | setEnums es, g => ({ g with enums := es }, none)
  | setOptions o, g => ({ g with options := o }, none)

end Edit

/-- What edits one after the other leave of a graph. -/
def Graph.edited (g : Graph) (edits : List Edit) : Graph :=
  edits.foldl (fun g edit => (edit.apply g).1) g

end EntityGraph
