import EntityGraph.Catalog.ScalarToken
import EntityGraph.Text.Blank
import EntityGraph.Value.Basic

/-!
Type expressions: `String!`, `[Post]`, `Int`. An expression is a base token inside brackets and
exclamation marks. A base token that a table knows is a scalar; any other one names an entity, and
the hints beside the expression say which relation it stands for.
-/
namespace EntityGraph.TypeExpr

/-- Brackets and exclamation marks. -/
def isWrapper (c : Char) : Bool :=
  c == '[' || c == ']' || c == '!'

/-- The token inside the wrappers of an expression. -/
def baseChars (cs : List Char) : List Char :=
  Text.trimChars (Text.stripChars isWrapper (Text.trimChars cs))

/-- The token inside the wrappers of an expression. -/
def base (raw : String) : String :=
  String.ofList (baseChars raw.toList)

/-- An expression allows null unless it ends in an exclamation mark. -/
def isNullable (raw : String) : Bool :=
  (Text.trimChars raw.toList).getLast? != some '!'

/-- An expression is a list if brackets enclose all of it. -/
def isList (raw : String) : Bool :=
  let cs := Text.trimChars raw.toList
  cs.head? == some '[' && cs.getLast? == some ']'

/-- The scalar that an expression names in a table. -/
def scalar? (table : ScalarTable) (raw : String) : Option ScalarToken :=
  (ScalarToken.ofLabel? (base raw)).filter fun t => (table.find? t).isSome

/-- The type that a table has for the scalar of an expression. -/
def scalarType? (table : ScalarTable) (raw : String) : Option FieldType :=
  (ScalarToken.ofLabel? (base raw)).bind table.find?

/-- Hints about the relation that an expression stands for. -/
abbrev Hints := List (String × Value)

/-- Whether a hint is given and not switched off. -/
def hinted (hints : Hints) (name : String) : Bool :=
  match hints.lookup name with
  | none | some (.bool false) => false
  | some _ => true

/-- The relation type that hints ask for. -/
def placeholder (hints : Hints) : FieldType :=
  if hinted hints "hasMany" then .hasMany
  else if hinted hints "hasOne" then .hasOne
  else if hinted hints "belongsToMany" then .belongsToMany
  else .belongsTo

/-- The field type of an expression. -/
def normalize (table : ScalarTable) (raw : String) (hints : Hints) : FieldType :=
  (scalarType? table raw).getD (placeholder hints)

/-- A type as it is handed over: an expression, or a token itself. -/
inductive Given where
  | expression (raw : String)
  | token (t : ScalarToken)
  deriving DecidableEq, Repr

namespace Given

/-- The scalar that is handed over. An expression names one only if the table has it, but a token
    is taken as it is. -/
def scalar? (table : ScalarTable) : Given → Option ScalarToken
  | expression raw => TypeExpr.scalar? table raw
  | token t => some t

/-- The field type of what is handed over. -/
def normalize (table : ScalarTable) (given : Given) (hints : Hints) :
    Except ScalarTable.Unlisted FieldType :=
  match given.scalar? table with
  | some t => table.typeOf t
  | none => .ok (placeholder hints)

end Given

theorem scalarType?_eq (table : ScalarTable) (raw : String) :
    scalarType? table raw = (scalar? table raw).bind table.find? := by
  unfold scalarType? scalar?
  cases h : ScalarToken.ofLabel? (base raw) with
  | none => rfl
  | some t => cases found : table.find? t <;> simp [Option.filter, found]

/-- Every expression has a field type. -/
theorem Given.normalize_expression (table : ScalarTable) (raw : String) (hints : Hints) :
    (Given.expression raw).normalize table hints = .ok (TypeExpr.normalize table raw hints) := by
  rw [Given.normalize, TypeExpr.normalize, scalarType?_eq, Given.scalar?]
  cases named : TypeExpr.scalar? table raw with
  | none => rfl
  | some t =>
    have listed : (table.find? t).isSome = true := (Option.filter_eq_some_iff.1 named).2
    obtain ⟨type, found⟩ := Option.isSome_iff_exists.1 listed
    simp only [ScalarTable.typeOf, Option.bind_some, found, Option.getD_some]

end EntityGraph.TypeExpr
