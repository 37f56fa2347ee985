import EntityGraph.Value.Basic

/-!
Records: the attributes of a part of a graph by name, in the order in which they are written.
-/
namespace EntityGraph

/-- Named values in order. -/
abbrev Record := List (String × Value)

namespace Value

/-- The mapping of a record. -/
def ofRecord (r : Record) : Value :=
  .mapping (r.map fun (k, v) => (.text k, v))

/-- A text, or null. -/
def ofText? : Option String → Value
  | none => .null
  | some s => .text s

/-- A whole number, or null. -/
def ofInt? : Option Int → Value
  | none => .null
  | some n => .int n

/-- A list of texts. -/
def ofTexts (xs : List String) : Value :=
  .list (xs.map .text)

end Value

end EntityGraph
