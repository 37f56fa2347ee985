import EntityGraph.Graph.Basic
import EntityGraph.Record.Sketch

/-!
Problems: what callers are told when a source or a graph is refused. A problem has a category, a
message, and the names of what it is about.
-/
namespace EntityGraph

/-- The categories of problems. -/
inductive Category where
  /-- The category that all the others are part of. -/
  | general
  /-- A source is not what it should be. -/
  | parse
  /-- A kind of source that is not known. -/
  | unsupportedSource
  /-- A type that is no scalar. -/
  | unknownScalar
  /-- A graph that takes no more entities. -/
  | frozen
  /-- A graph that fails its check; the next three say how. -/
  | check
  /-- A part that lacks a piece. -/
  | structural
  /-- A relation that lacks a piece. -/
  | relationDefinition
  /-- A relation that leads nowhere or has no way back. -/
  | referential
  deriving DecidableEq, Repr

/-- What a problem comes from: a value that was given, or the state that something is in. -/
inductive Cause where
  | value | state
  deriving DecidableEq, Repr

namespace Category

/-- The code of a category. -/
def code : Category → String
  | general => "SCHEMAGRAPH_ERROR"
  | parse => "PARSE_ERROR"
  | unsupportedSource => "UNSUPPORTED_SOURCE"
  | unknownScalar => "UNKNOWN_SCALAR"
  | frozen => "CONFIG_FROZEN"
  | check => "VALIDATION_ERROR"
  | structural => "STRUCTURAL_ERROR"
  | relationDefinition => "RELATION_DEFINITION_ERROR"
  | referential => "REFERENTIAL_ERROR"

/-- The categories that a category is part of, itself in front and the widest one at the end. -/
def lineage : Category → List Category
  | general => [general]
  | structural => [structural, check, general]
  | referential => [referential, check, general]
  | relationDefinition => [relationDefinition, structural, check, general]
  | c => [c, general]

/-- What the problems of a category come from. -/
def cause? : Category → Option Cause
  | general => none
  | frozen => some .state
  | _ => some .value

end Category

/-- What a problem is about. -/
structure Context where
  entity : Option String := none
  relation : Option String := none
  field : Option String := none
  deriving DecidableEq, Repr

/-- The names that are given, by what they are names of. -/
def Context.record (c : Context) : Record :=
  [("entity", c.entity), ("relation", c.relation), ("field", c.field)].filterMap fun (key, name) =>
    name.map fun s => (key, .text s)

/-- A problem. Where values were refused as a part, the faults stand beside the message. -/
structure Problem where
  category : Category
  message : String
  context : Context := {}
  faults : Option (List Record.Fault) := none
  deriving DecidableEq, Repr

namespace Problem

/-- What callers are told. -/
def record (p : Problem) : Record := [
  ("code", .text p.category.code), ("message", .text p.message),
  ("context", .ofRecord p.context.record)]

/-- What a message ends with if the cause is described elsewhere. -/
def elsewhere : String := "<details>"

/-- The problem of a draft that is no relation. -/
def ofDraft {α : Type} (name? : α → Option String) (f : DraftFault α) : Problem :=
  match f with
  | .typeUnset owner => ⟨.relationDefinition, f.message, { entity := owner }, none⟩
  | .ownerUnset _ => ⟨.relationDefinition, f.message, {}, none⟩
  | .targetUnset _ owner name =>
    ⟨.relationDefinition, f.message, { entity := some owner, relation := name.bind name? }, none⟩

/-- The problem of adding an entity to a frozen graph. -/
def ofFrozen (f : FrozenFault) : Problem :=
  ⟨.frozen, f.message, { entity := some f.entity }, none⟩

/-- The problem of a type that is no scalar. -/
def unknownScalar (raw : String) : Problem :=
  ⟨.unknownScalar, "Unknown scalar type '" ++ raw ++ "'.", {}, none⟩

end Problem

end EntityGraph
