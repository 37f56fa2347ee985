import EntityGraph.Proofs.Built
import EntityGraph.Proofs.Readback
import EntityGraph.Proofs.Reading

/-!
Schema texts and documents agree. The dump of a schema text's graph, under the names that documents
use, is a document, and the graph of that document has the same dump.
-/
namespace EntityGraph

open Results

/-! ## What a schema text declares besides entities -/

namespace Schema

/-- A value that a line gives the application: a single one, or a list of texts. -/
def IsEntry (v : Value) : Prop :=
  v.IsScalar ∨ ∃ xs, v = .ofTexts xs

theorem isEntry_of_line {d : Declaration} {name : String} {v : Value}
    (done : configEntry? d = .ok (some (name, v))) : IsEntry v := by
  unfold configEntry? at done
  dsimp only at done
  split at done
  · cases done
  · split at done
    · cases done
    · obtain ⟨v', given, done⟩ := bind_eq_ok.1 done
      have scalar := isScalar_of_literal (mapError_eq_ok.1 given)
      split at done
      · cases done
      · split at done
        · cases done
          exact .inr ⟨_, rfl⟩
        · cases done
          exact .inl trivial
      · cases done
        exact .inl scalar

private theorem isEntry_putEntry {es : Entries} {k v : Value} (old : ∀ e ∈ es, IsEntry e.2)
    (new : IsEntry v) : ∀ e ∈ Value.putEntry es k v, IsEntry e.2 := by
  induction es with
  | nil => simpa [Value.putEntry] using new
  | cons e rest ih =>
    obtain ⟨k', v'⟩ := e
    simp only [List.forall_mem_cons] at old
    rw [Value.putEntry]
    split
    · exact List.forall_mem_cons.2 ⟨new, old.2⟩
    · exact List.forall_mem_cons.2 ⟨old.1, ih old.2⟩

theorem isEntry_of_configEntries {b : Block} {lines : List (Nat × String)} {es es' : Entries}
    (old : ∀ e ∈ es, IsEntry e.2) (done : configEntries b es lines = .ok es') :
    ∀ e ∈ es', IsEntry e.2 := by
  induction lines generalizing es with
  | nil =>
    cases done
    exact old
  | cons line rest ih =>
    simp only [configEntries, bind_eq_ok] at done
    obtain ⟨d, -, entry, found, done⟩ := done
    split at done
    · exact ih old done
    · exact ih (isEntry_putEntry old (isEntry_of_line found)) done

private theorem isEntry_of_find? {es : Entries} (all : ∀ e ∈ es, IsEntry e.2) {key : String}
    {v : Value} (found : Value.find? es key = some v) : IsEntry v := by
  obtain ⟨e, member, rfl⟩ := Option.map_eq_some_iff.1 found
  exact all e (List.mem_of_find?_eq_some member)

private theorem eq_none_of_isEntry {v : Value} {given : Option Record} (entry : IsEntry v)
    (taken : Record.orNull (Record.acceptMapping Record.acceptAny) v = .ok given) :
    given = none := by
  rcases entry with scalar | ⟨xs, rfl⟩
  · cases v with
    | null =>
      cases taken
      rfl
    | bool | int | float | text => cases taken
    | _ => cases scalar
  · cases taken

/-- No line gives a mapping, so what an application makes up is never set. -/
theorem plain_of_appOf {bs : List Block} {a : App} (done : appOf bs = .ok a) :
    a.fakerMappings = none := by
  unfold appOf at done
  split at done
  · cases done
    rfl
  · simp only [bind_eq_ok, mapError_eq_ok] at done
    obtain ⟨es, entered, read⟩ := done
    have all := isEntry_of_configEntries (by simp) entered
    obtain ⟨change, accepted, rfl⟩ := Record.readAttributes_of_read read
    have blank : Record.appPart.blank.fakerMappings = none := rfl
    refine Record.readAttributes_keeps (P := fun a => a.fakerMappings = none) ?_ accepted blank
    intro attr member v found change accepted x plain
    have entry := isEntry_of_find? all found
    simp only [Record.appPart, List.mem_cons, List.not_mem_nil, or_false] at member
    rcases member with rfl | rfl | rfl | rfl | rfl | rfl | rfl | rfl <;>
      obtain ⟨given, taken, rfl⟩ := map_eq_ok.1 accepted <;>
      first
      | exact plain
      | exact eq_none_of_isEntry entry taken
  · cases done

/-- The application of a text makes nothing up, and its enumerations have the names of their
    blocks. -/
theorem header_of_read {dialect : Dialect} {s : String} {c : Contents} {warnings : List Warning}
    (done : read dialect s = .ok (c, warnings)) :
    c.app.fakerMappings = none ∧ ∀ e ∈ c.enums, Record.enumPart.ofRecord e.record = .ok e ∧
      ∃ b ∈ blocks s, b.isEnum = true ∧ e.name = b.name := by
  simp only [read, contentsOf, bind_eq_ok, pure_eq_ok, Prod.mk.injEq] at done
  obtain ⟨⟨contents, told⟩, ⟨app, made, enums, listed, _, -, _, -, rfl, rfl⟩, rfl, rfl⟩ := done
  refine ⟨plain_of_appOf made, fun e member => ?_⟩
  obtain ⟨b, kept, given⟩ := exists_of_mem_right (enumsFrom_eq_ok.1 listed).1 member
  obtain ⟨among, isEnum⟩ := List.mem_filter.1 kept
  obtain rfl := enum_of_enumOf given
  exact ⟨mapError_eq_ok.1 given, b, among, isEnum, rfl⟩

end Schema

/-! ## Portable contents -/

theorem Value.IsScalar.portable {v : Value} (scalar : v.IsScalar) : v.portable.IsScalar := by
  cases v with
  | null | bool | int | text => simp [Value.portable, Value.IsScalar]
  | float x =>
    rw [Value.portable]
    split <;> trivial
  | _ => cases scalar

theorem Value.checkPortable_of_isScalar {vs : List Value} (scalar : ∀ v ∈ vs, v.IsScalar) :
    checkPortable vs = .ok () := by
  have faultless : firstFault? 0 vs = none := by
    induction vs with
    | nil => rw [firstFault?]
    | cons v rest ih =>
      have here : faultAt? 0 v = none := by
        have first := scalar v List.mem_cons_self
        cases v with
        | null | bool | int | float | text => rfl
        | _ => cases first
      rw [firstFault?, here, ih fun v member => scalar v (List.mem_cons_of_mem _ member)]
      rfl
  rw [checkPortable, faultless]

theorem Field.Declared.portable {f : Field} (declared : f.Declared) : f.portable.Declared where
  trimmed := declared.trimmed
  named := declared.named
  typed := declared.typed
  scalar := declared.scalar.portable
  length := declared.length
  precision := declared.precision
  scale := declared.scale
  comment := declared.comment
  belongsTo := declared.belongsTo

theorem Entity.Declared.portable {defaultLocalKey : String} {e : Entity}
    (declared : e.Declared defaultLocalKey) : e.portable.Declared defaultLocalKey := by
  refine ⟨declared.word, ?_, declared.relations⟩
  intro f member
  obtain ⟨f, inside, rfl⟩ := List.mem_map.1 member
  exact (declared.fields f inside).portable

/-- Contents with the portable forms of all values of any kind in them. -/
def Contents.portable (c : Contents) : Contents :=
  ⟨c.app.portable, c.entities.map Entity.portable, c.enums⟩

theorem Contents.portable_portable (c : Contents) : c.portable.portable = c.portable := by
  simp [portable, App.portable_portable, Entity.portable_portable, Function.comp_def]

theorem Contents.portable_toGraph (c : Contents) (options : GraphOptions) :
    (c.toGraph options).portable = c.portable.toGraph options := by
  simp [toGraph, portable, Graph.portable, Graph.freeze, Graph.namedPlaces, Function.comp_def,
    Entity.portable]

namespace Document.ReadableContents

variable {defaultLocalKey : String} {c : Contents}

theorem portable (readable : ReadableContents defaultLocalKey c) :
    ReadableContents defaultLocalKey c.portable := by
  refine ⟨?_, readable.enums, ?_⟩
  · simp [Contents.portable, App.portable, readable.plain]
  · intro e member
    obtain ⟨e, inside, rfl⟩ := List.mem_map.1 member
    obtain ⟨declared, tabled⟩ := readable.entities e inside
    exact ⟨declared.portable, tabled⟩

theorem portable?_toGraph (readable : ReadableContents defaultLocalKey c)
    (options : GraphOptions) :
    (c.toGraph options).portable? = .ok (.ofRecord (c.portable.toGraph options).record) := by
  have free : Value.checkPortable (c.toGraph options).freeValues = .ok () := by
    refine Value.checkPortable_of_isScalar fun v member => ?_
    rcases List.mem_append.1 member with made | default
    · have plain : (c.toGraph options).app.fakerMappings = none := readable.plain
      simp [App.freeValues, plain] at made
    · rw [Contents.entities_toGraph] at default
      obtain ⟨e, inside, default⟩ := List.mem_flatMap.1 default
      obtain ⟨f, owned, default⟩ := List.mem_flatMap.1 default
      obtain rfl := List.mem_singleton.1 default
      exact ((readable.entities e inside).declared.fields f owned).scalar
  rw [Graph.portable?_eq free, Contents.portable_toGraph]

end Document.ReadableContents

theorem Schema.readable_of_read {dialect : Dialect} {s : String} {c : Contents}
    {warnings : List Warning} (done : read dialect s = .ok (c, warnings))
    (tabled : ∀ b ∈ blocks s, b.isEntity = true → tableOf b ≠ some "")
    (apart : ∀ b ∈ blocks s, b.isEnum = true → b.name ≠ "enum") :
    Document.ReadableContents dialect.defaultLocalKey c := by
  obtain ⟨plain, enums⟩ := header_of_read done
  have declares := declares_of_read done
  refine ⟨plain, ?_, ?_⟩
  · intro e member
    obtain ⟨made, b, among, isEnum, named⟩ := enums e member
    refine ⟨?_, ?_, made⟩
    · rw [named]
      exact (isWord_of_blocks among).trimmed
    · rw [named]
      exact apart b among isEnum
  · intro e member
    obtain ⟨b, among, isEntity, table⟩ := declares.tables e member
    refine ⟨declares.entities e member, ?_⟩
    rw [table]
    exact tabled b among isEntity

/-! ## Loaders -/

theorem Loader.build_document {l : Loader} {es : Entries} {c : Contents}
    (done : Document.read l.dialect.scalars l.options.defaultLocalKey (.mapping es) = .ok c) :
    l.build (some (.document es)) (.text "json") = .ok (c.toGraph l.options, []) := by
  have json : l.build (some (.document es)) (.text "json") =
      (Source.document es).build l.dialect l.options .json :=
    build_label l (.document es) .json
  rw [json]
  simp only [Source.build, Source.contents, Source.jsonValue, bind, Except.bind, done,
    Except.mapError]
  rfl

/-- The graph of a schema text has a dump. Under the names that documents use, the dump is a
    document whose graph has the same dump. This is so unless the text names an empty table, or
    calls an enumeration like the type of its fields. The loader may read schema texts in another
    dialect than its options give, unless only the default key of that dialect is empty. -/
theorem Loader.build_document_of_schema {l : Loader} {s : String} {g : Graph}
    {warnings : List Schema.Warning}
    (keyed : l.dialect.defaultLocalKey = "" → l.options.defaultLocalKey = "")
    (done : l.build (some (.text s)) (.text "sdl") = .ok (g, warnings))
    (tabled : ∀ b ∈ Schema.blocks s, b.isEntity = true → Schema.tableOf b ≠ some "")
    (apart : ∀ b ∈ Schema.blocks s, b.isEnum = true → b.name ≠ "enum") :
    ∃ dump g', g.portable? = .ok dump ∧
      l.build (some (.document (Document.ofDump dump))) (.text "json") = .ok (g', []) ∧
        g'.portable? = .ok dump := by
  obtain ⟨c, read, rfl⟩ := Loader.build_sdl_eq_ok.1 done
  have readable : Document.ReadableContents l.dialect.defaultLocalKey c :=
    Schema.readable_of_read read tabled apart
  have dumped := readable.portable.portable?_toGraph l.options
  -- The document declares the portable contents, which have the same dump as the contents.
  rw [Contents.portable_portable] at dumped
  refine ⟨_, c.portable.toGraph l.options, readable.portable?_toGraph l.options, ?_, dumped⟩
  rw [Document.ofDump_record, Contents.entities_toGraph]
  exact Loader.build_document (Document.read_contentsRecord keyed readable.portable _)

/-- A text about tasks with a state, a table and an owner. -/
def Schema.todo : String :=
  "enum State \x7b\n  open, done\n\x7d\n" ++
    "type Task @table(todo) \x7b\n  state: State @default(open)\n" ++
    "  owner: User! @name(author)\n\x7d\n" ++
    "type User \x7b\n  id: ID!\n\x7d"

/-- The blocks of the text. -/
def Schema.todoPieces : List Schema.Piece := [
  .block ⟨.enum, "State", [], [(1, ""), (2, "  open, done"), (3, "")]⟩,
  .block ⟨.type, "Task", [("table", some "todo")], [(4, ""), (5, "  state: State @default(open)"),
    (6, "  owner: User! @name(author)"), (7, "")]⟩,
  .block ⟨.type, "User", [], [(8, ""), (9, "  id: ID!"), (10, "")]⟩]

/-- The text and the document of its dump have graphs with the same dump. -/
theorem Loader.build_document_of_schema_todo : ∃ g warnings dump g',
    Loader.build {} (some (.text Schema.todo)) (.text "sdl") = .ok (g, warnings) ∧
      g.entityNames = ["Task", "User"] ∧ g.portable? = .ok dump ∧
        Loader.build {} (some (.document (Document.ofDump dump))) (.text "json") = .ok (g', []) ∧
          g'.portable? = .ok dump := by
  have split : Schema.pieces Schema.todo = Schema.todoPieces := by decide +kernel
  have passes : Loader.buildsPieces {} Schema.todoPieces
      (fun g _ => g.entityNames == ["Task", "User"]) = true := by
    decide +kernel
  obtain ⟨g, warnings, done, names⟩ := Loader.exists_of_buildsPieces split passes
  have tabled : ∀ b ∈ Schema.blocks Schema.todo, b.isEntity = true →
      Schema.tableOf b ≠ some "" := by
    rw [Schema.blocks, split]
    decide +kernel
  have apart : ∀ b ∈ Schema.blocks Schema.todo, b.isEnum = true → b.name ≠ "enum" := by
    rw [Schema.blocks, split]
    decide +kernel
  obtain ⟨dump, g', dumped, rebuilt, same⟩ :=
    Loader.build_document_of_schema (l := {}) id done tabled apart
  exact ⟨g, warnings, dump, g', done, by simpa using names, dumped, rebuilt, same⟩

end EntityGraph
