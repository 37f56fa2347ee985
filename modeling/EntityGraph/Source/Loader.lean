import EntityGraph.Source.Basic

/-!
Loaders: a run's options with a dialect of schema texts and a source to fall back on.
-/
namespace EntityGraph

/-- A loader. -/
structure Loader where
  options : GraphOptions := {}
  /-- How schema texts are read, if not in the dialect that the options give. -/
  reader : Option Schema.Dialect := none
  source : Option Source := none
  kind : Option SourceKind := none

namespace Loader

/-- The dialect that schema texts are read in. -/
def dialect (l : Loader) : Schema.Dialect :=
  l.reader.getD { defaultLocalKey := l.options.defaultLocalKey }

/-- The loader with another source to fall back on. -/
def withSource (l : Loader) (kind : SourceKind) (source : Option Source) : Loader :=
  { l with source := source, kind := some kind }

/-- The kind that a value names; null names none. -/
def kindOf : Value → Except Failure (Option SourceKind)
  | .null => .ok none
  | v => match SourceKind.ofValue? v with
    | some k => .ok (some k)
    | none => .error (.unsupportedKind v)

/-- The failure of a loader without a source. -/
def noSource : Failure :=
  .parse ("No source to build from: pass one to build() or call " ++
    "with_sdl()/with_json()/with_yaml() first.") {}

/-- The source and the kind that count: a given source is a schema text unless a kind is given, too,
    and the loader's own source is of the loader's kind unless one is given. -/
def choose (l : Loader) (source : Option Source) (kind : Value) :
    Except Failure (Source × SourceKind) := do
  let kind ← kindOf kind
  match source with
  | some s => return (s, kind.getD .sdl)
  | none => match l.source, kind <|> l.kind with
    | some s, some k => return (s, k)
    | _, _ => throw noSource

/-- The graph of a source, with warnings. -/
def build (l : Loader) (source : Option Source) (kind : Value) :
    Except Failure (Graph × List Schema.Warning) := do
  let (s, k) ← l.choose source kind
  s.build l.dialect l.options k

/-- The checked graph of a source, with warnings. -/
def load (l : Loader) (source : Option Source) (kind : Value) :
    Except Failure (Graph × List Schema.Warning) := do
  let (s, k) ← l.choose source kind
  s.load l.dialect l.options k

/-- The display of a loader. -/
def display (l : Loader) : String :=
  "<ConfigBuilder source=" ++ ((l.kind.map SourceKind.label).getD "none") ++ " namespace=" ++
    Text.quoted l.options.qualifier ++ ">"

end Loader

end EntityGraph
