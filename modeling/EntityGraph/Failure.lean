import EntityGraph.Document.Contents
import EntityGraph.Graph.Edit
import EntityGraph.Problem
import EntityGraph.Schema.Contents
import EntityGraph.Source.Kind
import EntityGraph.Value.Portable
import EntityGraph.Yaml.Fault

/-!
Failures: everything that can end an operation. Most are problems, which callers are told about in
full; the others come from values that are not what an operation expects.
-/
namespace EntityGraph

/-- What ends an operation. -/
inductive Failure where
  | problem (p : Problem)
  /-- Values that are no part of the kind that was asked for. -/
  | invalid (i : Record.Invalid)
  /-- A value of the right kind that stands for nothing. -/
  | badValue (message : String)
  /-- A value of the wrong kind. -/
  | wrongKind
  /-- A key that is not there. -/
  | missingKey
  /-- An attribute that is not there or cannot be set. -/
  | missingAttribute
  /-- A place that is not there. -/
  | missingPlace
  /-- A number that is too large for what it is to stand for. -/
  | tooLarge
  /-- A document with too many levels. -/
  | tooDeep
  /-- A value that has no portable form. -/
  | unportable (f : Value.PortableFault)
  /-- A value that cannot be written. -/
  | unwritable (f : Value.PortableFault)
  deriving DecidableEq, Repr

namespace Failure

/-- The failure of a source. -/
def parse (message : String) (context : Context) : Failure :=
  .problem ⟨.parse, message, context, none⟩

/-- The failure of a source whose values were refused as a part. -/
def parseInvalid (about : String) (context : Context) (i : Record.Invalid) : Failure :=
  .problem ⟨.parse, about ++ ": " ++ Problem.elsewhere, context, some i.faults⟩

/-- The failure of a number with too many digits. -/
def ofDigits (e : Decimal.DigitExcess) : Failure :=
  .badValue e.message

/-- The failure of a draft of values. -/
def ofSketch : Record.SketchFault → Failure
  | .unset f => .problem (Problem.ofDraft (fun | .text s => some s | _ => none) f)
  | .overlong => .badValue Decimal.overlongMessage
  | .noPlural => .wrongKind
  | .invalid i => .invalid i

/-- The failure of setting an attribute. -/
def ofAssign : Record.AssignFault → Failure
  | .invalid i => .invalid i
  | .derived _ => .missingAttribute

/-- The failure of a token that a table leaves out. -/
def ofUnlisted (_ : ScalarTable.Unlisted) : Failure :=
  .missingKey

/-- The failure of a schema text. -/
def ofSchema : Schema.SchemaFault → Failure
  | .declaration f => parse f.message { entity := some f.block }
  | .digits e => ofDigits e
  | .configRepeated names =>
    parse ("Only one @config block is allowed, found " ++ toString names.length ++ ": " ++
      ", ".intercalate names ++ ".") {}
  | .configInvalid name i => parseInvalid ("Invalid @config block '" ++ name ++ "'") {} i
  | .enumRepeated name => parse ("Duplicate enum '" ++ name ++ "' in schema.") {}
  | .enumInvalid name i => parseInvalid ("Invalid enum '" ++ name ++ "'") {} i
  | .entityRepeated name =>
    parse ("Duplicate entity '" ++ name ++ "' in schema.") { entity := some name }
  | .notWhole directive entity field line arg =>
    parse ("@" ++ directive ++ " on '" ++ entity ++ "." ++ field ++ "' (line " ++ toString line ++
      ") expects an integer, got " ++ Text.quoted arg ++ ".")
      { entity := some entity, field := some field }
  | .fieldInvalid entity field line i =>
    parseInvalid ("Invalid field '" ++ entity ++ "." ++ field ++ "' (line " ++ toString line ++ ")")
      { entity := some entity, field := some field } i
  | .entityInvalid i => .invalid i
  | .settingInvalid f => ofAssign f
  | .relation f => ofSketch f

/-- The names that a fault of a graph is about. -/
def checkContext : CheckFault → Context
  | .entityUnnamed _ => {}
  | .entityRepeated entity | .fieldsMissing entity | .fieldUnnamed entity _ =>
    { entity := some entity }
  | .fieldUntyped entity field => { entity := some entity, field := some field }
  | .relationUntyped entity relation | .targetUnset entity relation _
  | .targetUnknown entity relation _ | .keyMissing entity relation _
  | .inverseMissing entity relation _ | .pivotMissing entity relation =>
    { entity := some entity, relation := some relation }
  | .inverseUnset f => (Problem.ofDraft some f).context

/-- The category of a fault of a graph. -/
def checkCategory : CheckFault → Category
  | .entityUnnamed _ | .entityRepeated _ | .fieldsMissing _ | .fieldUnnamed ..
  | .fieldUntyped .. | .relationUntyped .. => .structural
  | .targetUnset .. | .inverseUnset _ => .relationDefinition
  | .targetUnknown .. | .keyMissing .. | .inverseMissing .. | .pivotMissing .. => .referential

/-- The failure of a graph. -/
def ofCheck (f : CheckFault) : Failure :=
  .problem ⟨checkCategory f, f.message, checkContext f, none⟩

/-- The failure of an edit. -/
def ofEdit : EditFault → Failure
  | .frozen f => .problem (.ofFrozen f)
  | .check f => ofCheck f
  | .assign f => ofAssign f
  | .missing => .missingPlace

/-- The failure of setting a piece of a draft. -/
def ofPiece : Record.PieceFault → Failure
  | .notRelationType display => .badValue (Record.notRelationTypeMessage display)
  | .notNamed => .missingAttribute
  | .argumentCount => .wrongKind

/-- The failure of a document. -/
def ofDocument : Document.DocumentFault → Failure
  | .topLevel kind => parse ("Expected a mapping at top level, got " ++ kind ++ ".") {}
  | .appMissing => parse "The configuration must include an \"app\" object." {}
  | .entitiesMissing => parse "The configuration must include an \"entities\" array." {}
  | .notMapping what kind => parse ("Expected a mapping for " ++ what ++ ", got " ++ kind ++ ".") {}
  | .noMembers => .wrongKind
  | .overlong => .badValue Decimal.overlongMessage
  | .appInvalid i => parseInvalid "Invalid app object" {} i
  | .enumInvalid name i => parseInvalid ("Invalid enum '" ++ name ++ "'") {} i
  | .entityInvalid entity i =>
    parseInvalid ("Invalid entity '" ++ entity ++ "'") { entity := some entity } i
  | .typeUnknown type entity field =>
    parse ("Unknown type '" ++ type ++ "' for field '" ++ entity ++ "." ++ field ++ "'.")
      { entity := some entity, field := some field }
  | .fieldInvalid entity field i =>
    parseInvalid ("Invalid field '" ++ entity ++ "." ++ field ++ "'")
      { entity := some entity, field := some field } i
  | .relationTypeUnknown type entity =>
    parse ("Unknown relation type '" ++ type ++ "' in entity '" ++ entity ++ "'.")
      { entity := some entity }
  | .relation f => ofSketch f

/-- The failure of a YAML text. -/
def ofYaml (f : Yaml.Fault) : Failure :=
  match f with
  | .malformed => parse ("Invalid YAML: " ++ Problem.elsewhere) {}
  | .noFlag => .missingKey
  | .emptyNumber => .missingPlace
  | .noMoment => .missingAttribute
  | .noMomentText => .wrongKind
  | .tooLarge => .tooLarge
  | .tooDeep => .tooDeep
  | .digits _ | .noWhole .. | .noNumber _ | .noCharacter | .calendar _ =>
    .badValue (f.message?.getD "")

/-- The failure of a value that names no kind of source. -/
def unsupportedKind (v : Value) : Failure :=
  .problem ⟨.unsupportedSource, SourceKind.unsupportedMessage v, {}, none⟩

end Failure

end EntityGraph
