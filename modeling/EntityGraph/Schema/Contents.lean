import EntityGraph.Catalog.TypeExpr
import EntityGraph.Graph.Contents
import EntityGraph.Record.Sketch
import EntityGraph.Schema.Declaration
import EntityGraph.Schema.Warning

/-!
The contents of a schema text: the metadata of the application, the enumerations and the entities
that its blocks declare. Relations are read when all entities are known, so a type may refer to one
that is declared further down.
-/
namespace EntityGraph.Schema

/-- Why a schema text has no contents. -/
inductive SchemaFault where
  | declaration (f : DeclarationFault)
  | digits (e : Decimal.DigitExcess)
  | configRepeated (names : List String)
  | configInvalid (name : String) (i : Record.Invalid)
  | enumRepeated (name : String)
  | enumInvalid (name : String) (i : Record.Invalid)
  | entityRepeated (name : String)
  | notWhole (directive entity field : String) (line : Int) (arg : String)
  | fieldInvalid (entity field : String) (line : Int) (i : Record.Invalid)
  | entityInvalid (i : Record.Invalid)
  | settingInvalid (f : Record.AssignFault)
  | relation (f : Record.SketchFault)

/-- What decides how types are read: the scalars, and the local key of relations. -/
structure Dialect where
  scalars : ScalarTable := ScalarTable.standard
  defaultLocalKey : String := "id"

/-- The value of a literal. -/
def literalValue (s : String) : Except SchemaFault Value :=
  (literal s).mapError .digits

/-- The values of the directives of a declaration. -/
def hintsOf (d : Declaration) : Except SchemaFault TypeExpr.Hints :=
  d.hints.mapError .digits

/-! ## Lists of values -/

/-- What stands between values. -/
def isSeparator (c : Char) : Bool :=
  Text.isBlank c || c == ','

/-- The values that separators divide. -/
def splitValues : List Char → List (List Char)
  | [] => []
  | c :: rest =>
    if isSeparator c then splitValues rest
    else match rest with
      | [] => [[c]]
      | d :: _ =>
        if isSeparator d then [c] :: splitValues rest
        else match splitValues rest with
          | [] => [[c]]
          | v :: vs => (c :: v) :: vs

/-- The values that separators divide, as texts. -/
def valuesOf (s : String) : List String :=
  (splitValues s.toList).map String.ofList

/-! ## The application -/

/-- The metadata that a line gives: its name and its value, if the name is known and the value is
    not null. -/
def configEntry? (d : Declaration) : Except SchemaFault (Option (String × Value)) :=
  let name := Name.snake d.name
  if !Record.appPart.attributes.any (·.name == name) then .ok none
  else match d.directives.raw? "default" with
    | none => .ok none
    | some arg => do
      match ← literalValue arg with
      | .null => return none
      | .text s =>
        if name = "capabilities" then return some (name, .ofTexts (valuesOf s))
        else return some (name, .text s)
      | v => return some (name, v)

/-- The entries of the block that describes the application. Of equal names the last one counts. -/
def configEntries (b : Block) : Entries → List (Nat × String) → Except SchemaFault Entries
  | es, [] => .ok es
  | es, (n, line) :: rest => do
    let d ← (Declaration.ofLine line n b.name).mapError .declaration
    match ← configEntry? d with
    | none => configEntries b es rest
    | some (name, v) => configEntries b (Value.putEntry es (.text name) v) rest

/-- The metadata of the application: the one block that describes it, or the defaults. -/
def appOf (bs : List Block) : Except SchemaFault App :=
  match bs.filter Block.isConfig with
  | [] => .ok {}
  | [b] => do
    let es ← configEntries b [] b.contentLines
    (Record.appPart.read es).mapError (.configInvalid b.name)
  | many => .error (.configRepeated (many.map Block.name))

/-! ## Enumerations -/

/-- The values that a block lists. -/
def enumValues (b : Block) : List String :=
  b.contentLines.flatMap fun (_, line) => valuesOf line

/-- The enumeration of a block. -/
def enumOf (b : Block) : Except SchemaFault EnumDefinition :=
  let record : Record := [("name", .text b.name), ("values", .ofTexts (enumValues b))]
  (Record.enumPart.ofRecord record).mapError (.enumInvalid b.name)

/-- The enumerations of blocks, none of which may have a name that was seen. -/
def enumsFrom (seen : List String) : List Block → Except SchemaFault (List EnumDefinition)
  | [] => .ok []
  | b :: rest => do
    if seen.contains b.name then throw (.enumRepeated b.name)
    let e ← enumOf b
    return e :: (← enumsFrom (b.name :: seen) rest)

/-- The enumerations of a text. -/
def enumsOf (bs : List Block) : Except SchemaFault (List EnumDefinition) :=
  enumsFrom [] (bs.filter Block.isEnum)

/-! ## Fields -/

/-- The whole number that a directive gives. -/
def wholeArg? (entity : String) (d : Declaration) (directive : String) :
    Except SchemaFault (Option Int) :=
  match d.directives.raw? directive with
  | none => .ok none
  | some arg => do
    match ← literalValue arg with
    | .int n => return some n
    | _ => throw (.notWhole directive entity d.name d.line arg)

/-- The default of a field; null if there is none. -/
def defaultOf (d : Declaration) : Except SchemaFault Value :=
  match d.directives.raw? "default" with
  | none => .ok .null
  | some arg => literalValue arg

/-- The values of a field: those of its enumeration, unless a directive lists some. -/
def fieldValues (d : Declaration) (enum : Option EnumDefinition) : List String :=
  match Relation.filled? (d.directives.raw? "values") with
  | some arg => (valuesOf arg).map unquote
  | none => (enum.map EnumDefinition.values).getD []

/-- The type of a field: the one of its enumeration, or the one that its type expression names. -/
def fieldTypeOf (dialect : Dialect) (d : Declaration) (enum : Option EnumDefinition) :
    Except SchemaFault FieldType :=
  match enum with
  | some _ => .ok .enum
  | none => (hintsOf d).map (TypeExpr.normalize dialect.scalars d.rawType)

/-- The directives that switch on attributes of a field. -/
def flagDirectives : List (String × String) := [
  ("sort", "sortable"), ("search", "searchable"), ("unique", "unique"), ("hidden", "hidden"),
  ("sometimes", "sometimes")]

/-- The attributes that a declaration gives its field. -/
def fieldRecord (d : Declaration) (type : FieldType) (default : Value) (min max : Option Int)
    (values : List String) : Record :=
  let nullable := TypeExpr.isNullable d.rawType
  [("name", .text d.name), ("type", .text type.label), ("nullable", .bool nullable),
    ("required", .bool !nullable), ("default", default), ("min", .ofInt? min),
    ("max", .ofInt? max), ("values", .ofTexts values)] ++
  flagDirectives.map fun (directive, name) => (name, .bool (d.directives.has directive))

/-- The field of a declaration. -/
def fieldOf (dialect : Dialect) (entity : String) (d : Declaration)
    (enum : Option EnumDefinition) : Except SchemaFault Field := do
  let type ← fieldTypeOf dialect d enum
  let default ← defaultOf d
  let min ← wholeArg? entity d "min"
  let max ← wholeArg? entity d "max"
  let record := fieldRecord d type default min max (fieldValues d enum)
  (Record.fieldPart.ofRecord record).mapError (.fieldInvalid entity d.name d.line)

/-! ## Entities -/

/-- The directives that set settings of an entity, in the order in which they are read. -/
def settingDirectives : List (String × String) := [
  ("hasImages", "has_images"), ("hasAvatar", "has_avatar"), ("searchable", "is_searchable")]

/-- Whether a directive switches its setting on: an argument other than true switches it off. -/
def switchesOn : Option String → Except SchemaFault Bool
  | none => .ok true
  | some arg => do
    match ← literalValue arg with
    | .bool b => return b
    | _ => return false

/-- Settings with those that some directives of a block set. -/
def settingsFrom (b : Block) : EntitySettings → List (String × String) →
    Except SchemaFault EntitySettings
  | s, [] => .ok s
  | s, (directive, name) :: rest =>
    match b.directives.lookup directive with
    | none => settingsFrom b s rest
    | some arg => do
      let on ← switchesOn arg
      let s ← (Record.settingsPart.assign name (.bool on) s).mapError .settingInvalid
      settingsFrom b s rest

/-- The settings of a block's entity. -/
def settingsOf (b : Block) : Except SchemaFault EntitySettings :=
  settingsFrom b {} settingDirectives

/-- The directives that make a relation of a line, whatever its type. -/
def relationDirectives : List String := [
  "hasMany", "hasOne", "belongsToMany",
  "morphOne", "morphMany", "morphToMany", "morphedByMany", "morphTo", "belongsTo"]

/-- Whether a type is written as a list, with or without exclamation marks behind it. -/
def isListType (raw : String) : Bool :=
  TypeExpr.isList (String.ofList (Text.stripEnd (· == '!') (Text.trimChars raw.toList)))

/-- Whether a declaration says that it is a relation. -/
def saysRelation (d : Declaration) : Except SchemaFault Bool :=
  if isListType d.rawType then .ok true
  else do
    let hints ← hintsOf d
    return relationDirectives.any (TypeExpr.hinted hints)

/-- What a line of an entity declares. -/
inductive Member where
  | field (f : Field)
  | relation (d : Declaration)

/-- What a declaration declares: a field if its type is a scalar or an enumeration, and a relation
    otherwise. -/
def memberOf (dialect : Dialect) (enums : List EnumDefinition) (entity : String)
    (d : Declaration) : Except SchemaFault Member := do
  let base := TypeExpr.base d.rawType
  if ← saysRelation d then return .relation d
  else if (TypeExpr.scalar? dialect.scalars base).isSome then
    return .field (← fieldOf dialect entity d none)
  else match enums.find? (·.name == base) with
    | some e => return .field (← fieldOf dialect entity d (some e))
    | none => return .relation d

/-- What the lines of a block declare. -/
def members (dialect : Dialect) (enums : List EnumDefinition) (block : String) :
    List (Nat × String) → Except SchemaFault (List Member)
  | [] => .ok []
  | (n, line) :: rest => do
    let d ← (Declaration.ofLine line n block).mapError .declaration
    let m ← memberOf dialect enums block d
    return m :: (← members dialect enums block rest)

/-- An entity whose relations have yet to be read. -/
structure Shell where
  entity : Entity
  pending : List Declaration

/-- The field of a member. -/
def Member.field? : Member → Option Field
  | .field f => some f
  | .relation _ => none

/-- The declaration of a relation. -/
def Member.relation? : Member → Option Declaration
  | .field _ => none
  | .relation d => some d

/-- The table that a block names. -/
def tableOf (b : Block) : Option String :=
  (Relation.filled? (b.directives.raw? "table")).map unquote

/-- The attributes that a block gives its entity. -/
def shellRecord (b : Block) (settings : EntitySettings) : Record := [
  ("name", .text b.name), ("table", .ofText? (tableOf b)), ("settings", .ofRecord settings.record)]

/-- The entity of a block. -/
def shellOf (dialect : Dialect) (enums : List EnumDefinition) (b : Block) :
    Except SchemaFault Shell := do
  let settings ← settingsOf b
  let e ← (Record.entityPart.ofRecord (shellRecord b settings)).mapError .entityInvalid
  let ms ← members dialect enums b.name b.contentLines
  return ⟨{ e with fields := ms.filterMap Member.field? }, ms.filterMap Member.relation?⟩

/-- The entities of blocks, none of which may have a name that was seen. -/
def shellsFrom (dialect : Dialect) (enums : List EnumDefinition) (seen : List String) :
    List Block → Except SchemaFault (List Shell)
  | [] => .ok []
  | b :: rest => do
    let shell ← shellOf dialect enums b
    if seen.contains b.name then throw (.entityRepeated b.name)
    return shell :: (← shellsFrom dialect enums (b.name :: seen) rest)

/-! ## Relations -/

/-- The directives that name a relation type of their own, in the order in which they count. -/
def typeDirectives : List (String × RelationType) := [
  ("morphOne", .morphOne), ("morphMany", .morphMany), ("morphToMany", .morphToMany),
  ("morphedByMany", .morphedByMany), ("morphTo", .morphTo), ("belongsTo", .belongsTo)]

/-- The type of a declared relation. -/
def relationTypeOf (d : Declaration) : Except SchemaFault RelationType :=
  match typeDirectives.find? fun (name, _) => d.directives.has name with
  | some (_, type) => .ok type
  | none => do
    let placeholder := TypeExpr.placeholder (← hintsOf d)
    return placeholder.relationType?.getD .belongsTo

/-- The target of a declared relation. -/
def targetOf (type : RelationType) (d : Declaration) : Option String :=
  if type.requiresTarget then Relation.filled? (some (TypeExpr.base d.rawType)) else none

/-- The draft of a declared relation. -/
def draftOf (dialect : Dialect) (entity : String) (d : Declaration) (type : RelationType) :
    Draft String :=
  let draft : Draft String := {
    defaultLocalKey := dialect.defaultLocalKey
    type := some type
    foreignKey := d.directives.arg? "foreignKey"
    localKey := d.directives.arg? "localKey"
    relatedKey := d.directives.arg? "relatedKey" <|> d.directives.arg? "relatedForeignKey"
    name := d.directives.arg? "name" <|> some d.name
    morphName := d.directives.arg? "morphName"
    pivotTable := d.directives.arg? "pivot"
    cascade := d.directives.has "cascade" }
  (draft.withOwner (some entity)).withTarget (targetOf type d)

/-- The relation of a declaration, with a warning if its target is not among the names. -/
def relationOf (dialect : Dialect) (names : List String) (entity : String) (d : Declaration) :
    Except SchemaFault (Relation × Option Warning) := do
  let type ← relationTypeOf d
  let r ← (Record.buildSketch ((draftOf dialect entity d type).map .text)).mapError .relation
  let warning := (targetOf type d).bind fun target =>
    if names.contains target then none else some (.unknownTarget entity r.name d.line target)
  return (r, warning)

/-- An entity with its relations, and the warnings about them. -/
def Shell.complete (dialect : Dialect) (names : List String) (s : Shell) :
    Except SchemaFault (Entity × List Warning) := do
  let rs ← s.pending.mapM (relationOf dialect names s.entity.name)
  return ({ s.entity with relations := rs.map Prod.fst }, rs.filterMap Prod.snd)

/-! ## Texts -/

/-- The contents of blocks, with the warnings about their relations. -/
def contentsOf (dialect : Dialect) (bs : List Block) :
    Except SchemaFault (Contents × List Warning) := do
  let app ← appOf bs
  let enums ← enumsOf bs
  let shells ← shellsFrom dialect enums [] (bs.filter Block.isEntity)
  let names := shells.map (·.entity.name)
  let entities ← shells.mapM (Shell.complete dialect names)
  return (⟨app, entities.map Prod.fst, enums⟩, entities.flatMap Prod.snd)

/-- The contents of a schema text, with the warnings about it. -/
def read (dialect : Dialect) (s : String) : Except SchemaFault (Contents × List Warning) := do
  let ps := pieces s
  let (contents, warnings) ← contentsOf dialect (ps.filterMap Piece.block?)
  return (contents, pieceWarnings ps ++ warnings)

end EntityGraph.Schema
