import EntityGraph.Graph.Draft
import EntityGraph.Record.Parts

/-!
Drafts with values as pieces. A value counts as a piece unless it is null, false, zero or empty;
whether the pieces are texts is found out when the relation is built.
-/
namespace EntityGraph.Record

/-- Why a draft of values is no relation. -/
inductive SketchFault where
  | unset (f : DraftFault Value)
  /-- What the columns are named after has too many digits to be written. -/
  | overlong
  /-- What the columns are named after has no plural, because it is no text. -/
  | noPlural
  | invalid (i : Invalid)

/-- A piece that is given. -/
def piece? (v : Option Value) : Option Value :=
  v.bind Value.given?

/-- The draft with the pieces that are given. -/
def givenPieces (d : Draft Value) : Draft Value :=
  { d with
    foreignKey := piece? d.foreignKey
    localKey := piece? d.localKey
    relatedKey := piece? d.relatedKey
    name := piece? d.name
    morphName := piece? d.morphName
    pivotTable := piece? d.pivotTable }

/-- The foreign key that a relation gets by convention. -/
def conventionalKey (type : RelationType) (owner target : String) (morph : Option Value) :
    Except SketchFault Value :=
  if !type.isPolymorphic then .ok (.text (Convention.foreignKey type owner target))
  else match morph with
    | none => .ok .null
    | some m => match m.writtenText? with
      | none => .error .overlong
      | some s => .ok (.text (Convention.morphKey s))

/-- The table that a relation gets by convention. -/
def conventionalPivot (type : RelationType) (owner target : String) (morph : Option Value) :
    Except SketchFault Value :=
  if !type.requiresPivot then .ok .null
  else if !type.isPolymorphic then .ok (.text (Convention.pivotTable owner target))
  else match morph with
    | none => .ok .null
    | some (.text s) => .ok (.text (Name.plural s))
    | some _ => .error .noPlural

/-- A piece, the conventional one if none is given. -/
def pieceOr (given : Option Value) (conventional : Except SketchFault Value) :
    Except SketchFault Value :=
  match given with
  | some v => .ok v
  | none => conventional

/-- The relation of the given ends as a record of values. -/
def fillValues (d : Draft Value) (type : RelationType) (owner target : String) :
    Except SketchFault Record := do
  let morph := d.morphName <|> (Convention.morphName? type owner target).map .text
  let foreignKey ← pieceOr d.foreignKey (conventionalKey type owner target morph)
  let pivot ← pieceOr d.pivotTable (conventionalPivot type owner target morph)
  return [
    ("type", .text type.label),
    ("local_entity", .text owner),
    ("related_entity_name", .ofText? (Relation.filled? (some target))),
    ("foreign_key", foreignKey),
    ("local_key", d.localKey.getD (.text d.defaultLocalKey)),
    ("related_key", d.relatedKey.getD (.ofText? (Convention.relatedKey? type target))),
    ("relation_name", d.name.getD (.text (Convention.relationName type owner target))),
    ("morph_name", morph.getD .null),
    ("pivot_table", pivot),
    ("cascade", .bool d.cascade),
    ("inferred", .bool d.inferred)]

/-- Builds the relation of a draft of values. -/
def buildSketch (draft : Draft Value) : Except SketchFault Relation := do
  let d := givenPieces draft
  let (type, owner, target) ← d.ends.mapError .unset
  let record ← fillValues d type owner target
  (relationPart.ofRecord record).mapError .invalid

/-! ## Setting pieces -/

/-- The pieces of a draft. -/
inductive Piece where
  | type | owner | target | targetEntity
  | foreignKey | localKey | relatedKey | name | morphName | pivotTable
  | cascade | inferred
  deriving DecidableEq, Repr

/-- What a piece is set to: a value, or an entity that stands for its name. -/
inductive Argument where
  | value (v : Value)
  | entity (e : Entity)

/-- The display of an argument. -/
def Argument.display : Argument → String
  | .value v => v.display
  | .entity e => e.display

/-- The value of an argument. -/
def Argument.toValue : Argument → Value
  | .value v => v
  | .entity e => .ofRecord e.record

/-- Why a piece cannot be set. -/
inductive PieceFault where
  | notRelationType (display : String)
  | notNamed
  | argumentCount
  deriving DecidableEq, Repr

/-- The message about what is no relation type. -/
def notRelationTypeMessage (display : String) : String :=
  display ++ " is not a valid RelationType"

/-- The name that an argument stands for. -/
def nameOf? : Argument → Except PieceFault (Option String)
  | .value .null => .ok none
  | .value (.text s) => .ok (some (Text.trim s))
  | .value _ => .error .notNamed
  | .entity e => .ok (some e.name)

/-- The relation type that an argument stands for. -/
def relationTypeOf (a : Argument) : Except PieceFault RelationType :=
  match a with
  | .value (.text s) => match RelationType.ofLabel? s with
    | some t => .ok t
    | none => .error (.notRelationType a.display)
  | _ => .error (.notRelationType a.display)

/-- Sets a piece of a draft. Flags are switched on unless something else is said. -/
def setPiece (d : Draft Value) (p : Piece) (args : List Argument) :
    Except PieceFault (Draft Value) :=
  match p, args with
  | .cascade, [] => .ok { d with cascade := true }
  | .inferred, [] => .ok { d with inferred := true }
  | p, [a] => match p with
    | .type => do return { d with type := some (← relationTypeOf a) }
    | .owner => do return { d with owner := ← nameOf? a }
    | .target => do return { d with target := Relation.filled? (← nameOf? a) }
    | .targetEntity => match a with
      | .entity e => .ok { d with target := some e.name }
      | .value _ => .error .notNamed
    | .foreignKey => .ok { d with foreignKey := some a.toValue }
    | .localKey => .ok { d with localKey := some a.toValue }
    | .relatedKey => .ok { d with relatedKey := some a.toValue }
    | .name => .ok { d with name := some a.toValue }
    | .morphName => .ok { d with morphName := some a.toValue }
    | .pivotTable => .ok { d with pivotTable := some a.toValue }
    | .cascade => .ok { d with cascade := a.toValue.isGiven }
    | .inferred => .ok { d with inferred := a.toValue.isGiven }
  | _, _ => .error .argumentCount

/-! ## Requests -/

/-- What a caller asks of a draft. -/
inductive Request where
  | set (p : Piece) (args : List Argument)
  | build

/-- What a caller is told. -/
inductive Reply where
  | done
  | refused (f : PieceFault)
  | built (r : Relation)
  | unbuilt (f : SketchFault)

/-- What a request leaves of a draft, and the reply. Building changes nothing, and neither does a
    piece that cannot be set. -/
def Request.apply (d : Draft Value) : Request → Draft Value × Reply
  | set p args => match setPiece d p args with
    | .ok d => (d, .done)
    | .error f => (d, .refused f)
  | build => match buildSketch d with
    | .ok r => (d, .built r)
    | .error f => (d, .unbuilt f)

/-- What requests one after the other leave of a draft. -/
def draftAfter (d : Draft Value) (qs : List Request) : Draft Value :=
  qs.foldl (fun d q => (q.apply d).1) d

end EntityGraph.Record
