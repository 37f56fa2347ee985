import EntityGraph.Proofs.Declared
import EntityGraph.Source.Loader

/-!
Graphs as loaders hand them out. Whatever the source, the index is the one of the names as they
stand, no name has blanks around it, and relations have the name of their entity as owner.
-/
namespace EntityGraph

open Results

/-- A graph that a loader has built from a source. -/
def Graph.Built (g : Graph) : Prop :=
  ∃ (l : Loader) (source : Option Source) (kind : Value) (warnings : List Schema.Warning),
    l.build source kind = .ok (g, warnings)

/-- A frozen graph whose list has all entities in order and whose index fits their names, none of
    which has blanks around it. -/
structure Graph.Fresh (g : Graph) : Prop where
  order : g.order = List.range g.store.length
  index : g.index = some (Graph.firstEntries g.namedPlaces)
  trimmed : ∀ e ∈ g.store, Text.Trimmed e.name

theorem Graph.Fresh.entities_eq {g : Graph} (fresh : g.Fresh) : g.entities = g.store :=
  Graph.entities_of_order fresh.order

theorem Graph.Fresh.entityNames_eq {g : Graph} (fresh : g.Fresh) :
    g.entityNames = g.store.map Entity.name := by
  rw [Graph.entityNames, fresh.entities_eq]

theorem Graph.Fresh.mem_order {g : Graph} (fresh : g.Fresh) {place : Nat} {e : Entity}
    (found : g.store[place]? = some e) : place ∈ g.order := by
  rw [fresh.order, List.mem_range]
  exact (List.getElem?_eq_some_iff.1 found).1

/-- An entity whose name has no blanks around it and is the one that its relations give. -/
structure Entity.Consistent (e : Entity) : Prop where
  trimmed : Text.Trimmed e.name
  owner : ∀ r ∈ e.relations, r.owner = e.name

/-! ## Documents -/

namespace Document

/-- An entity that is read from its name and other attributes has that name. -/
private theorem name_of_entityPart {name : String} {others : Record} {e : Entity}
    (done : Record.entityPart.ofRecord (("name", .text name) :: others) = .ok e) : e.name = name := by
  obtain ⟨change, accepted, rfl⟩ := Record.readAttributes_of_read done
  rw [Record.entityPart, Record.Part.readAttributes, Record.both_eq_ok] at accepted
  obtain ⟨setName, later, named, rest, rfl⟩ := accepted
  refine Record.readAttributes_keeps (P := fun e => e.name = name) ?_ rest ?_
  · intro a member v _ change accepted x same
    simp only [List.mem_cons, List.not_mem_nil, or_false] at member
    rcases member with rfl | rfl | rfl | rfl <;>
      (obtain ⟨_, -, rfl⟩ := map_eq_ok.1 accepted; exact same)
  · cases named; rfl

private theorem owner_of_relationPart {record : Record} {owner : String} {r : Relation}
    (given : record.lookup "local_entity" = some (.text owner))
    (done : Record.relationPart.ofRecord record = .ok r) : r.owner = owner := by
  obtain ⟨change, accepted, rfl⟩ := Record.readAttributes_of_read done
  rw [Record.relationPart, Record.Part.readAttributes, Record.both_eq_ok] at accepted
  obtain ⟨setType, later, -, accepted, rfl⟩ := accepted
  rw [Record.Part.readAttributes, Record.both_eq_ok] at accepted
  obtain ⟨setOwner, later, owned, rest, rfl⟩ := accepted
  refine Record.readAttributes_keeps (P := fun r => r.owner = owner) ?_ rest ?_
  · intro a member v _ change accepted x same
    simp only [List.mem_cons, List.not_mem_nil, or_false] at member
    rcases member with rfl | rfl | rfl | rfl | rfl | rfl | rfl | rfl | rfl <;>
      (obtain ⟨_, -, rfl⟩ := map_eq_ok.1 accepted; exact same)
  · have found : Value.find? (Record.entries record) "local_entity" = some (.text owner) :=
      (Record.find?_entries _ _).trans given
    rw [Record.Part.readAttribute, Record.Attribute.optional] at owned
    dsimp only at owned
    rw [Record.entries] at found
    rw [found] at owned
    cases owned
    rfl

private theorem owner_of_buildSketch {d : Draft Value} {r : Relation}
    (done : Record.buildSketch d = .ok r) : Relation.filled? d.owner = some r.owner := by
  simp only [Record.buildSketch, bind_eq_ok, mapError_eq_ok] at done
  obtain ⟨⟨type, owner, target⟩, ends, record, filled, read⟩ := done
  obtain ⟨-, owned, -⟩ := Draft.ends_eq_ok.1 ends
  have given : record.lookup "local_entity" = some (.text owner) := by
    simp only [Record.fillValues, bind_eq_ok, pure_eq_ok] at filled
    obtain ⟨foreignKey, -, pivot, -, rfl⟩ := filled
    simp [List.lookup_cons]
  rw [owner_of_relationPart given read]
  exact owned

private theorem owner_of_relationOf {defaultLocalKey entity : String} {v : Value} {r : Relation}
    (trimmed : Text.Trimmed entity) (done : relationOf defaultLocalKey entity v = .ok r) :
    r.owner = entity := by
  simp only [relationOf, bind_eq_ok] at done
  obtain ⟨item, -, target, -, type, -, done⟩ := done
  have incomplete : ∀ {type : Option RelationType} {target : Option String},
      incompleteRelation entity type target item = .ok r → r.owner = entity := by
    intro type target done
    rw [incompleteRelation, mapError_eq_ok] at done
    exact owner_of_relationPart (by simp [List.lookup_cons]) done
  cases type with
  | none => exact incomplete done
  | some type =>
    dsimp only at done
    split at done
    · exact incomplete done
    · have owned := owner_of_buildSketch (mapError_eq_ok.1 done)
      simp only [draftOf, Draft.withTarget, Draft.withOwner, Option.map_some] at owned
      rw [trimmed] at owned
      exact (Option.some.inj (Relation.filled?_eq_some.1 owned).1).symm

private theorem trimmed_of_trimmedText {v : Value} {s : String} (done : trimmedText v = .ok s) :
    Text.Trimmed s := by
  unfold trimmedText at done
  split at done
  · cases done
    rfl
  · obtain ⟨text, -, rfl⟩ := map_eq_ok.1 done
    exact Text.trimmed_trim _

private theorem consistent_of_entityOf {scalars : ScalarTable} {defaultLocalKey : String}
    {enums : List EnumDefinition} {v : Value} {e : Entity}
    (done : entityOf scalars defaultLocalKey enums v = .ok e) : e.Consistent := by
  simp only [entityOf, bind_eq_ok, pure_eq_ok, mapError_eq_ok] at done
  obtain ⟨item, _, name, given, _, _, _, _, _, _, shell, shelled, _, _, _, _, _, _, relations, made,
    rfl⟩ := done
  have named : shell.name = name := name_of_entityPart shelled
  have trimmed := trimmed_of_trimmedText given
  refine ⟨named ▸ trimmed, fun r member => ?_⟩
  obtain ⟨_, _, read⟩ := exists_of_mem_right (mapM_eq_ok made) member
  exact (owner_of_relationOf trimmed read).trans named.symm

/-- Entities are read with names without blanks around them, which their relations give too. -/
theorem consistent_of_read {scalars : ScalarTable} {defaultLocalKey : String} {v : Value}
    {c : Contents} (done : read scalars defaultLocalKey v = .ok c) :
    ∀ e ∈ c.entities, e.Consistent := by
  intro e member
  unfold read at done
  split at done
  · split at done
    · simp only [bind_eq_ok, pure_eq_ok] at done
      obtain ⟨_, _, _, _, _, _, entities, built, rfl⟩ := done
      obtain ⟨_, _, made⟩ := exists_of_mem_right (mapM_eq_ok built) member
      exact consistent_of_entityOf made
    · exact absurd done throw_ne_ok
    · exact absurd done throw_ne_ok
  · exact absurd done throw_ne_ok

end Document

/-! ## Loaders -/

private theorem consistent_of_contents {dialect : Schema.Dialect} {defaultLocalKey : String}
    {kind : SourceKind} {s : Source} {c : Contents} {warnings : List Schema.Warning}
    (done : s.contents dialect defaultLocalKey kind = .ok (c, warnings)) :
    ∀ e ∈ c.entities, e.Consistent := by
  intro e member
  cases kind <;> simp only [Source.contents, bind_eq_ok, pure_eq_ok, mapError_eq_ok] at done
  case sdl | graphql =>
    obtain ⟨_, _, done⟩ := done
    have declared := (Schema.declares_of_read done).entities e member
    exact ⟨declared.word.trimmed, fun r inside => (declared.relations r inside).owned⟩
  case json | yaml =>
    obtain ⟨_, _, contents, done, same⟩ := done
    cases same
    exact Document.consistent_of_read done e member

theorem Graph.Built.consistent {g : Graph} (built : g.Built) : ∀ e ∈ g.entities, e.Consistent := by
  obtain ⟨l, source, kind, warnings, done⟩ := built
  simp only [Loader.build, Source.build, bind_eq_ok, pure_eq_ok] at done
  obtain ⟨_, _, ⟨c, _⟩, contents, same⟩ := done
  cases same
  rw [Contents.entities_toGraph]
  exact consistent_of_contents contents

/-- What a loader builds is fresh. -/
theorem Graph.Built.fresh {g : Graph} (built : g.Built) : g.Fresh := by
  obtain ⟨l, source, kind, warnings, done⟩ := built
  simp only [Loader.build, Source.build, bind_eq_ok, pure_eq_ok] at done
  obtain ⟨_, _, ⟨c, _⟩, contents, same⟩ := done
  cases same
  exact ⟨rfl, rfl, fun e member => (consistent_of_contents contents e member).trimmed⟩

private theorem Loader.choose_label (l : Loader) (source : Source) (kind : SourceKind) :
    l.choose (some source) (.text kind.label) = .ok (source, kind) := by
  have named : SourceKind.ofValue? (.text kind.label) = some kind := by
    cases kind <;> decide +kernel
  have given : kindOf (.text kind.label) = .ok (some kind) := by
    simp only [kindOf, named]
  rw [choose, given]
  rfl

theorem Loader.build_label (l : Loader) (source : Source) (kind : SourceKind) :
    l.build (some source) (.text kind.label) = source.build l.dialect l.options kind := by
  rw [build, choose_label]
  rfl

theorem Loader.load_label (l : Loader) (source : Source) (kind : SourceKind) :
    l.load (some source) (.text kind.label) = source.load l.dialect l.options kind := by
  rw [load, choose_label]
  rfl

theorem Loader.load_sdl (l : Loader) (s : String) :
    l.load (some (.text s)) (.text "sdl") = (Source.text s).load l.dialect l.options .sdl :=
  load_label l (.text s) .sdl

/-- The graph of a schema text is what the text declares, frozen. -/
theorem Loader.build_sdl_eq_ok {l : Loader} {s : String} {g : Graph}
    {warnings : List Schema.Warning} :
    l.build (some (.text s)) (.text "sdl") = .ok (g, warnings) ↔
      ∃ c, Schema.read l.dialect s = .ok (c, warnings) ∧ c.toGraph l.options = g := by
  have sdl : l.build (some (.text s)) (.text "sdl") =
      (Source.text s).build l.dialect l.options .sdl :=
    build_label l (.text s) .sdl
  rw [sdl]
  simp only [Source.build, Source.contents, Source.schemaText, bind_eq_ok, pure_eq_ok,
    mapError_eq_ok]
  constructor
  · rintro ⟨⟨c, told⟩, ⟨_, same, read⟩, built⟩
    cases same
    cases built
    exact ⟨c, read, rfl⟩
  · rintro ⟨c, read, rfl⟩
    exact ⟨(c, warnings), ⟨s, rfl, read⟩, rfl⟩

/-- A test of what a loader builds. -/
def Loader.builds (l : Loader) (source : Option Source) (kind : Value) (test : Graph → Bool) :
    Bool :=
  match l.build source kind with
  | .ok (g, _) => test g
  | .error _ => false

theorem Loader.exists_of_builds {l : Loader} {source : Option Source} {kind : Value}
    {test : Graph → Bool} (passes : l.builds source kind test = true) :
    ∃ g warnings, l.build source kind = .ok (g, warnings) ∧ test g = true := by
  unfold builds at passes
  split at passes
  · rename_i g warnings done
    exact ⟨g, warnings, done, passes⟩
  · cases passes

/-- A test of what a loader builds from the pieces of a schema text, and of the warnings. -/
def Loader.buildsPieces (l : Loader) (ps : List Schema.Piece)
    (test : Graph → List Schema.Warning → Bool) : Bool :=
  match Schema.contentsOf l.dialect (ps.filterMap Schema.Piece.block?) with
  | .ok (c, warnings) => test (c.toGraph l.options) (Schema.pieceWarnings ps ++ warnings)
  | .error _ => false

theorem Loader.exists_of_buildsPieces {l : Loader} {s : String} {ps : List Schema.Piece}
    {test : Graph → List Schema.Warning → Bool} (split : Schema.pieces s = ps)
    (passes : l.buildsPieces ps test = true) :
    ∃ g warnings, l.build (some (.text s)) (.text "sdl") = .ok (g, warnings) ∧
      test g warnings = true := by
  unfold buildsPieces at passes
  split at passes
  · rename_i c warnings done
    refine ⟨_, _, build_sdl_eq_ok.2 ⟨c, ?_, rfl⟩, passes⟩
    rw [Schema.read, split, done]
    rfl
  · cases passes

/-- A document about users with posts, and posts with entities of the given name. Posts have no
    field, and nothing leads back. -/
def Document.blog (related : String) : Source :=
  let relation (type entity : String) : Value :=
    .mapping [(.text "type", .text type), (.text "entity", .text entity)]
  let entity (name : String) (fields relations : List Value) : Value :=
    .mapping [(.text "name", .text name), (.text "fields", .list fields),
      (.text "relations", .list relations)]
  let id : Value := .mapping [(.text "name", .text "id"), (.text "type", .text "id")]
  .document [
    (.text "app", .mapping [(.text "name", .text "Blog")]),
    (.text "entities", .list [
      entity "User" [id] [relation "hasMany" "Post"],
      entity "Post" [] [relation "belongsToMany" related],
      entity "Tag" [id] [relation "hasOne" "Tag"]])]

end EntityGraph
