import EntityGraph.Value.Basic

/-!
Kinds of sources.
-/
namespace EntityGraph

/-- The kinds of sources. -/
inductive SourceKind where
  | sdl | graphql | json | yaml
  deriving DecidableEq, Repr

namespace SourceKind

/-- The spelling of a kind. -/
def label : SourceKind → String
  | sdl => "sdl"
  | graphql => "graphql"
  | json => "json"
  | yaml => "yaml"

/-- The name of the constant that stands for a kind. -/
def constantName : SourceKind → String
  | sdl => "SDL"
  | graphql => "GRAPHQL"
  | json => "JSON"
  | yaml => "YAML"

/-- All kinds. -/
def all : List SourceKind := [sdl, graphql, json, yaml]

/-- The kind with a spelling. -/
def ofLabel? (s : String) : Option SourceKind :=
  all.find? fun k => k.label == s

/-- Whether sources of a kind are schema texts. -/
def isSchema : SourceKind → Bool
  | sdl | graphql => true
  | json | yaml => false

theorem mem_all (k : SourceKind) : k ∈ all := by
  cases k <;> decide

theorem ofLabel?_label (k : SourceKind) : ofLabel? k.label = some k := by
  cases k <;> decide +kernel

/-- The kind that a value names, in any case. -/
def ofValue? : Value → Option SourceKind
  | .text s => ofLabel? (String.ofList (s.toList.map Char.toLower))
  | _ => none

/-- The message about a value that names no kind. -/
def unsupportedMessage (v : Value) : String :=
  "Unsupported source kind '" ++ v.toText ++ "'. Supported: " ++
    ", ".intercalate (all.map label) ++ "."

end SourceKind

end EntityGraph
