import EntityGraph.Failure
import EntityGraph.Json.Read
import EntityGraph.Yaml.Read

/-!
Sources: schema texts and documents, as text, as bytes or read already. A source and its kind give
a graph; loading checks that graph as well.
-/
namespace EntityGraph

/-- A source. -/
inductive Source where
  | text (s : String)
  | bytes (bs : List UInt8)
  /-- A document that is a mapping, read already. -/
  | document (entries : Entries)

namespace Source

/-- The failure of bytes that are no text. -/
def encodingFailure (what : String) (f : Text.DecodeFault) : Failure :=
  .parse (what ++ " source is not valid UTF-8: " ++ f.message) {}

/-- The schema text of a source. -/
def schemaText : Source → Except Failure String
  | text s => .ok s
  | bytes bs => match Text.decode .utf8 false 0 bs with
    | .ok cs => .ok (String.ofList cs)
    | .error f => .error (encodingFailure "SDL" f)
  | document _ => .error (.parse "SDL source must be text, got a mapping." {})

/-- The failure of a JSON text. -/
def jsonFailure (cs : List Char) : Json.Fault → Failure
  | .malformed cause position =>
    .parse ("Invalid JSON: " ++ Json.malformedMessage cs cause position) {}
  | .tooLong e => .ofDigits e
  | .tooDeep => .tooDeep

/-- The value of a JSON source. -/
def jsonValue : Source → Except Failure Value
  | text s => (Json.readString s).mapError (jsonFailure s.toList)
  | bytes bs => match Json.decodeBytes bs with
    | .ok cs => (Json.readDocument cs).mapError (jsonFailure cs)
    | .error f => .error (encodingFailure "JSON" f)
  | document es => .ok (.mapping es)

/-- The value of a YAML source. -/
def yamlValue : Source → Except Failure Value
  | text s => (Yaml.readString s).mapError .ofYaml
  | bytes bs => (Yaml.readBytes bs).mapError .ofYaml
  | document es => .ok (.mapping es)

/-- What a source declares, with warnings. A document takes no more than the scalars from the
    dialect of schema texts. -/
def contents (dialect : Schema.Dialect) (defaultLocalKey : String) (kind : SourceKind)
    (s : Source) : Except Failure (Contents × List Schema.Warning) :=
  match kind with
  | .sdl | .graphql => do
    let text ← s.schemaText
    (Schema.read dialect text).mapError .ofSchema
  | .json => do
    let v ← s.jsonValue
    return (← (Document.read dialect.scalars defaultLocalKey v).mapError .ofDocument, [])
  | .yaml => do
    let v ← s.yamlValue
    return (← (Document.read dialect.scalars defaultLocalKey v).mapError .ofDocument, [])

/-- The graph of a source, with warnings. -/
def build (dialect : Schema.Dialect) (options : GraphOptions) (kind : SourceKind) (s : Source) :
    Except Failure (Graph × List Schema.Warning) := do
  let (c, warnings) ← s.contents dialect options.defaultLocalKey kind
  return (c.toGraph options, warnings)

/-- The checked graph of a source, with warnings. -/
def load (dialect : Schema.Dialect) (options : GraphOptions) (kind : SourceKind) (s : Source) :
    Except Failure (Graph × List Schema.Warning) := do
  let (g, warnings) ← s.build dialect options kind
  match g.check with
  | ⟨g, none⟩ => return (g, warnings)
  | ⟨_, some f⟩ => throw (.ofCheck f)

end Source

end EntityGraph
