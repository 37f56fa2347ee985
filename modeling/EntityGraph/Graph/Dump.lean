import EntityGraph.Graph.Basic
import EntityGraph.Json.Write

/-!
Dumps: the portable forms of graphs and their parts. A part has one unless a value in it that may be
anything has none.
-/
namespace EntityGraph

/-- The portable form of a record with the given values of any kind in it. -/
def Record.portable? (r : Record) (free : List Value) : Except Value.PortableFault Value :=
  (Value.checkPortable free).map fun _ => (Value.ofRecord r).portable

/-! ## Values of any kind -/

/-- The values of any kind in the metadata. -/
def App.freeValues (a : App) : List Value :=
  (a.fakerMappings.getD []).map Prod.snd

/-- The values of any kind in the options. -/
def GraphOptions.freeValues (o : GraphOptions) : List Value :=
  o.entityMeta.flatMap fun (_, r) => r.map Prod.snd

/-- The values of any kind in a field. -/
def Field.freeValues (f : Field) : List Value :=
  [f.default]

/-- The values of any kind in an entity. -/
def Entity.freeValues (e : Entity) : List Value :=
  e.fields.flatMap Field.freeValues

/-- The values of any kind in a graph, its options left out. -/
def Graph.freeValues (g : Graph) : List Value :=
  g.app.freeValues ++ g.entities.flatMap Entity.freeValues

/-! ## Graphs -/

/-- The portable form of a graph without its options. -/
def Graph.portable? (g : Graph) : Except Value.PortableFault Value :=
  Record.portable? g.record g.freeValues

/-- The JSON document of a graph without its options. -/
def Graph.json? (g : Graph) (style : Json.Style) : Except Value.PortableFault String :=
  (Value.checkPortable g.freeValues).map fun _ => Json.write style (.ofRecord g.record)

end EntityGraph
