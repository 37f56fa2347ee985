import EntityGraph.Graph.Basic

/-!
What a source declares. With the options of a run it is a graph.
-/
namespace EntityGraph

/-- What a source declares. -/
structure Contents where
  app : App
  entities : List Entity
  enums : List EnumDefinition

/-- The frozen graph of what a source declares. -/
def Contents.toGraph (c : Contents) (options : GraphOptions) : Graph :=
  Graph.freeze { app := c.app, store := c.entities, enums := c.enums, options := options }

@[simp] theorem Contents.entities_toGraph (c : Contents) (options : GraphOptions) :
    (c.toGraph options).entities = c.entities :=
  Graph.entities_of_order rfl

@[simp] theorem Contents.entityNames_toGraph (c : Contents) (options : GraphOptions) :
    (c.toGraph options).entityNames = c.entities.map Entity.name := by
  rw [Graph.entityNames, entities_toGraph]

end EntityGraph
