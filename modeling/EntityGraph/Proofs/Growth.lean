import EntityGraph.Proofs.Inverse
import Mathlib.Data.List.Nodup

/-!
Growth: all that a check does to a graph, whether it passes or not. Entities keep their places,
names and settings; relations are only added behind the others; fields are only added behind the
others, under names of their own, or learn which entity they refer to. Since growth is transitive,
what holds of every graph that has grown holds throughout a check.
-/
namespace EntityGraph

/-- A field afterwards: as it was, or with the entity that it refers to filled in. -/
def Field.Grows (names : List String) (f f' : Field) : Prop :=
  f' = f ∨ f.belongsTo = none ∧ ∃ name ∈ names, f' = { f with belongsTo := some name }

/-- A field that a check adds. -/
structure Field.Added (f : Field) : Prop where
  named : f.name ≠ ""
  typed : f.type = some .foreignId
  refers : f.belongsTo ≠ none

/-- Fields afterwards, when nothing but the names of entities may be filled in. -/
def FieldsGrow (names : List String) (fields fields' : List Field) : Prop :=
  ∃ kept added, fields' = kept ++ added ∧ List.Forall₂ (Field.Grows names) fields kept ∧
    (∀ f ∈ added, f.Added) ∧ (added.map Field.name).Nodup ∧
    ∀ f ∈ added, f.name ∉ fields.map Field.name

/-- An entity afterwards. -/
structure Entity.Grows (names : List String) (e e' : Entity) : Prop where
  name : e'.name = e.name
  table : e'.table = e.table
  settings : e'.settings = e.settings
  relations : ∃ added, e'.relations = e.relations ++ added ∧ ∀ r ∈ added, r.Added
  fields : FieldsGrow names e.fields e'.fields

/-- The places of the entities that a graph knows: those in its list and those that its index still
    has for a name. -/
def Graph.knownPlaces (g : Graph) : List Nat :=
  g.order ++ ((g.index.getD []).map Prod.fst).filterMap g.locate?

/-- The entities that a graph knows. One that its list has lost since the graph has been frozen is
    still looked up, checked against and completed. -/
def Graph.known (g : Graph) : List Entity :=
  g.knownPlaces.filterMap (g.store[·]?)

/-- The names of the entities that a graph knows. -/
def Graph.knownNames (g : Graph) : List String :=
  g.known.map Entity.name

/-- A graph afterwards. -/
structure Graph.Grows (g g' : Graph) : Prop where
  app : g'.app = g.app
  enums : g'.enums = g.enums
  options : g'.options = g.options
  index : g'.index = g.index
  order : g'.order = g.order
  store : List.Forall₂ (Entity.Grows g.knownNames) g.store g'.store
  others : ∀ place ∉ g.knownPlaces, g'.store[place]? = g.store[place]?

/-! ## Fields -/

theorem Field.Grows.refl (names : List String) (f : Field) : f.Grows names f :=
  .inl rfl

theorem Field.Grows.name {names : List String} {f f' : Field} (grown : f.Grows names f') :
    f'.name = f.name := by
  rcases grown with rfl | ⟨-, _, -, rfl⟩ <;> rfl

theorem Field.Grows.type {names : List String} {f f' : Field} (grown : f.Grows names f') :
    f'.type = f.type := by
  rcases grown with rfl | ⟨-, _, -, rfl⟩ <;> rfl

theorem Field.Grows.refers {names : List String} {f f' : Field} (grown : f.Grows names f')
    (refers : f.belongsTo ≠ none) : f' = f := by
  rcases grown with same | ⟨unset, -⟩
  · exact same
  · exact absurd unset refers

theorem Field.Grows.trans {names : List String} {f f' f'' : Field} (first : f.Grows names f')
    (last : f'.Grows names f'') : f.Grows names f'' := by
  rcases first with rfl | ⟨unset, name, known, rfl⟩
  · exact last
  · rw [last.refers (Option.some_ne_none _)]
    exact .inr ⟨unset, name, known, rfl⟩

private theorem names_of_kept {names : List String} {fields kept : List Field}
    (grown : List.Forall₂ (Field.Grows names) fields kept) :
    kept.map Field.name = fields.map Field.name := by
  induction grown with
  | nil => rfl
  | cons first _ ih => rw [List.map_cons, List.map_cons, first.name, ih]

private theorem kept_refl (names : List String) (fields : List Field) :
    List.Forall₂ (Field.Grows names) fields fields :=
  List.forall₂_same.2 fun f _ => .refl names f

private theorem kept_trans {names : List String} {a b c : List Field}
    (first : List.Forall₂ (Field.Grows names) a b) (last : List.Forall₂ (Field.Grows names) b c) :
    List.Forall₂ (Field.Grows names) a c := by
  induction first generalizing c with
  | nil => exact last
  | cons head _ ih =>
    cases last with
    | cons head' tail' => exact .cons (head.trans head') (ih tail')

/-- Added fields refer to an entity already, so they stay as they are. -/
private theorem kept_of_added {names : List String} {added kept : List Field}
    (all : ∀ f ∈ added, f.Added) (grown : List.Forall₂ (Field.Grows names) added kept) :
    kept = added := by
  induction grown with
  | nil => rfl
  | cons first _ ih =>
    rw [first.refers (all _ List.mem_cons_self).refers,
      ih fun f member => all f (List.mem_cons_of_mem _ member)]

theorem FieldsGrow.refl (names : List String) (fields : List Field) :
    FieldsGrow names fields fields :=
  ⟨fields, [], by simp, kept_refl names fields, by simp, by simp, by simp⟩

theorem FieldsGrow.trans {names : List String} {a b c : List Field} (first : FieldsGrow names a b)
    (last : FieldsGrow names b c) : FieldsGrow names a c := by
  obtain ⟨kept, added, rfl, keeps, adds, single, apart⟩ := first
  obtain ⟨kept', added', rfl, keeps', adds', single', apart'⟩ := last
  have front : List.Forall₂ (Field.Grows names) kept (kept'.take kept.length) := by
    simpa using List.forall₂_take kept.length keeps'
  have back : kept'.drop kept.length = added :=
    kept_of_added adds (by simpa using List.forall₂_drop kept.length keeps')
  refine ⟨kept'.take kept.length, added ++ added', ?_, kept_trans keeps front, ?_, ?_, ?_⟩
  · rw [← List.append_assoc, ← back, List.take_append_drop]
  · intro f member
    exact (List.mem_append.1 member).elim (adds f) (adds' f)
  · rw [List.map_append, List.nodup_append]
    refine ⟨single, single', ?_⟩
    rintro name old _ new rfl
    obtain ⟨f, inside, rfl⟩ := List.mem_map.1 new
    exact apart' f inside (by rw [List.map_append]; exact List.mem_append_right _ old)
  · intro f member
    rcases List.mem_append.1 member with old | new
    · exact apart f old
    · have absent := apart' f new
      rw [List.map_append, names_of_kept keeps] at absent
      exact fun inside => absent (List.mem_append_left _ inside)

/-! ## Entities -/

theorem Entity.Grows.refl (names : List String) (e : Entity) : e.Grows names e :=
  ⟨rfl, rfl, rfl, ⟨[], by simp, by simp⟩, .refl names e.fields⟩

theorem Entity.Grows.trans {names : List String} {e e' e'' : Entity} (first : e.Grows names e')
    (last : e'.Grows names e'') : e.Grows names e'' := by
  refine ⟨last.name.trans first.name, last.table.trans first.table,
    last.settings.trans first.settings, ?_, first.fields.trans last.fields⟩
  obtain ⟨added, same, adds⟩ := first.relations
  obtain ⟨added', same', adds'⟩ := last.relations
  refine ⟨added ++ added', by rw [same', same, List.append_assoc], fun r member => ?_⟩
  exact (List.mem_append.1 member).elim (adds r) (adds' r)

theorem Entity.grows_addRelation (names : List String) (e : Entity) {r : Relation}
    (added : r.Added) : e.Grows names (e.addRelation r) :=
  ⟨rfl, rfl, rfl, ⟨[r], rfl, by simpa using added⟩, .refl names e.fields⟩

private theorem kept_referTo {names : List String} {target : String} (known : target ∈ names)
    (key : String) (fields : List Field) :
    List.Forall₂ (Field.Grows names) fields (Check.referTo key target fields) := by
  induction fields with
  | nil => exact .nil
  | cons f rest ih =>
    rw [Check.referTo]
    split
    · refine .cons ?_ (kept_refl names rest)
      split
      · rename_i unset
        exact .inr ⟨Option.isNone_iff_eq_none.1 unset, target, known, rfl⟩
      · exact .inl rfl
    · exact .cons (.refl names f) ih

theorem Entity.grows_withKeyField {names : List String} {key target : String}
    (filled : key ≠ "") (known : target ∈ names) (nullable : Bool) (e : Entity) :
    e.Grows names (Check.withKeyField nullable key target e) := by
  rw [Check.withKeyField]
  split
  · refine ⟨rfl, rfl, rfl, ⟨[], by simp, by simp⟩, Check.referTo key target e.fields, [], ?_⟩
    exact ⟨by simp, kept_referTo known key e.fields, by simp, by simp, by simp⟩
  · rename_i absent
    refine ⟨rfl, rfl, rfl, ⟨[], by simp [Entity.addField], by simp⟩, e.fields,
      [Check.keyField nullable key target], rfl, kept_refl names e.fields, ?_, by simp, ?_⟩
    · simpa using ⟨filled, rfl, Option.some_ne_none _⟩
    · simpa [Entity.hasField, Check.keyField] using absent

/-- With more names there is more that may be filled in. -/
theorem Entity.Grows.mono {names names' : List String} (more : names ⊆ names') {e e' : Entity}
    (grown : e.Grows names e') : e.Grows names' e' := by
  obtain ⟨kept, added, same, keeps, adds⟩ := grown.fields
  refine ⟨grown.name, grown.table, grown.settings, grown.relations, kept, added, same, ?_, adds⟩
  refine keeps.imp fun f f' grows => grows.imp id ?_
  rintro ⟨unset, name, known, rfl⟩
  exact ⟨unset, name, more known, rfl⟩

/-! ## Graphs -/

namespace Graph

section
variable {g g' : Graph} (grown : g.Grows g')
include grown

theorem Grows.name_at (place : Nat) :
    (g'.store[place]?).map Entity.name = (g.store[place]?).map Entity.name := by
  have same : ∀ {es es' : List Entity}, List.Forall₂ (Entity.Grows g.knownNames) es es' →
      es'.map Entity.name = es.map Entity.name := by
    intro es es' related
    induction related with
    | nil => rfl
    | cons first _ ih => rw [List.map_cons, List.map_cons, first.name, ih]
  rw [← List.getElem?_map, ← List.getElem?_map, same grown.store]

/-- The entities at some places keep their names. -/
private theorem Grows.names_at (places : List Nat) :
    (places.filterMap (g'.store[·]?)).map Entity.name =
      (places.filterMap (g.store[·]?)).map Entity.name := by
  rw [List.map_filterMap, List.map_filterMap]
  congr 1
  funext place
  exact grown.name_at place

theorem Grows.entityNames : g'.entityNames = g.entityNames := by
  rw [Graph.entityNames, entities, grown.order]
  exact grown.names_at g.order

theorem Grows.locate? (name : String) : g'.locate? name = g.locate? name :=
  locate?_congr grown.order grown.name_at grown.index name

theorem Grows.knownPlaces : g'.knownPlaces = g.knownPlaces := by
  rw [Graph.knownPlaces, Graph.knownPlaces, grown.order, grown.index, funext grown.locate?]

theorem Grows.knownNames : g'.knownNames = g.knownNames := by
  rw [Graph.knownNames, known, grown.knownPlaces]
  exact grown.names_at g.knownPlaces

theorem Grows.namedPlaces : g'.namedPlaces = g.namedPlaces :=
  namedPlaces_congr grown.order grown.name_at

end

theorem Grows.refl (g : Graph) : g.Grows g :=
  ⟨rfl, rfl, rfl, rfl, rfl, List.forall₂_same.2 fun e _ => .refl _ e, fun _ _ => rfl⟩

theorem Grows.trans {g g' g'' : Graph} (first : g.Grows g') (last : g'.Grows g'') :
    g.Grows g'' := by
  have compose : ∀ {a b c : List Entity}, List.Forall₂ (Entity.Grows g.knownNames) a b →
      List.Forall₂ (Entity.Grows g.knownNames) b c →
      List.Forall₂ (Entity.Grows g.knownNames) a c := by
    intro a b c front
    induction front generalizing c with
    | nil => exact id
    | cons head _ ih =>
      intro back
      cases back with
      | cons head' tail' => exact .cons (head.trans head') (ih tail')
  refine ⟨last.app.trans first.app, last.enums.trans first.enums,
    last.options.trans first.options, last.index.trans first.index, last.order.trans first.order,
    compose first.store (first.knownNames ▸ last.store), fun place unknown => ?_⟩
  exact (last.others place (first.knownPlaces ▸ unknown)).trans (first.others place unknown)

/-- A graph grows when one of the entities that it knows does. -/
theorem grows_modifyEntity {g : Graph} {place : Nat} (known : place ∈ g.knownPlaces)
    {f : Entity → Entity}
    (grown : ∀ e, g.store[place]? = some e → e.Grows g.knownNames (f e)) :
    g.Grows (g.modifyEntity place f) := by
  refine ⟨rfl, rfl, rfl, rfl, rfl, ?_, fun other unknown => ?_⟩
  · rw [modifyEntity, List.forall₂_iff_get]
    refine ⟨by simp, fun i inside _ => ?_⟩
    simp only [List.get_eq_getElem, List.getElem_modify]
    split
    · rename_i same
      exact grown _ (by rw [same]; exact List.getElem?_eq_getElem inside)
    · exact .refl _ _
  · have apart : place ≠ other := fun same => unknown (same ▸ known)
    simp [modifyEntity, apart]

/-- The entity at a place afterwards. -/
theorem Grows.entity {g g' : Graph} (grown : g.Grows g') {place : Nat} {e : Entity}
    (found : g.store[place]? = some e) :
    ∃ e', g'.store[place]? = some e' ∧ e.Grows g.knownNames e' := by
  obtain ⟨inside, rfl⟩ := List.getElem?_eq_some_iff.1 found
  have inside' : place < g'.store.length := grown.store.length_eq ▸ inside
  exact ⟨g'.store[place], List.getElem?_eq_getElem inside',
    grown.store.get inside inside'⟩

/-- The entity at a place before. -/
theorem Grows.entity_before {g g' : Graph} (grown : g.Grows g') {place : Nat} {e' : Entity}
    (found : g'.store[place]? = some e') :
    ∃ e, g.store[place]? = some e ∧ e.Grows g.knownNames e' := by
  obtain ⟨inside, rfl⟩ := List.getElem?_eq_some_iff.1 found
  have inside' : place < g.store.length := grown.store.length_eq.symm ▸ inside
  exact ⟨g.store[place], List.getElem?_eq_getElem inside',
    grown.store.get inside' inside⟩

/-- The entities at a place before and afterwards. -/
theorem Grows.between {g g' : Graph} (grown : g.Grows g') {place : Nat} {e e' : Entity}
    (found : g.store[place]? = some e) (found' : g'.store[place]? = some e') :
    e.Grows g.knownNames e' := by
  obtain ⟨other, there, grows⟩ := grown.entity found
  exact Option.some.inj (there.symm.trans found') ▸ grows

/-- An unfrozen graph has names only for entities of its list. -/
theorem mem_order_of_unfrozen {g : Graph} (unfrozen : g.index = none) {name : String} {place : Nat}
    (located : g.locate? name = some place) : place ∈ g.order := by
  rw [Graph.locate?, unfrozen] at located
  split at located
  · cases located
  · exact List.mem_of_find?_eq_some located

/-- What a name stands for is known, and so is the list; nothing else is. -/
theorem mem_knownPlaces {g : Graph} {place : Nat} :
    place ∈ g.knownPlaces ↔ place ∈ g.order ∨ ∃ name, g.locate? name = some place := by
  rw [Graph.knownPlaces, List.mem_append, List.mem_filterMap]
  refine or_congr_right' fun unlisted => exists_congr fun name => and_iff_right_of_imp ?_
  intro located
  cases frozen : g.index with
  | none => exact absurd (mem_order_of_unfrozen frozen located) unlisted
  | some index =>
    rw [Graph.locate?, frozen] at located
    split at located
    · cases located
    · obtain ⟨before, behind, same, -⟩ := List.lookup_eq_some_iff.1 located
      rw [Option.getD_some, same]
      simp

theorem mem_knownPlaces_of_order {g : Graph} {place : Nat} (listed : place ∈ g.order) :
    place ∈ g.knownPlaces :=
  mem_knownPlaces.2 (.inl listed)

theorem mem_knownPlaces_of_locate? {g : Graph} {name : String} {place : Nat}
    (located : g.locate? name = some place) : place ∈ g.knownPlaces :=
  mem_knownPlaces.2 (.inr ⟨name, located⟩)

theorem mem_knownNames {g : Graph} {place : Nat} {e : Entity} (known : place ∈ g.knownPlaces)
    (found : g.store[place]? = some e) : e.name ∈ g.knownNames :=
  List.mem_map_of_mem (List.mem_filterMap.2 ⟨place, known, found⟩)

end Graph

/-! ## Checks -/

namespace Check

private theorem addInverse_grows {g : Graph} {d : Draft String} {place : Nat}
    (known : place ∈ g.knownPlaces) (added : ∀ r, d.build = .ok r → r.Added) :
    g.Grows (addInverse g place d).graph := by
  rw [addInverse]
  split
  · rename_i r built
    exact Graph.grows_modifyEntity known fun e _ => e.grows_addRelation _ (added r built)
  · exact .refl g

section
variable {v : Visit} {g : Graph} (listed : v.place ∈ g.order) (owner : v.entity ∈ g.knownNames)
  {place : Nat} {target : Entity} (known : place ∈ g.knownPlaces)
  (found : g.store[place]? = some target)

include listed known found in
private theorem checkBelongsTo_grows : g.Grows (checkBelongsTo v g target).graph := by
  unfold checkBelongsTo
  split
  · exact .refl g
  · rename_i key keyed
    split
    · exact Graph.grows_modifyEntity (Graph.mem_knownPlaces_of_order listed) fun e _ =>
        e.grows_withKeyField (Relation.filled?_eq_some.1 keyed).2
          (Graph.mem_knownNames known found) _
    · exact .refl g

include owner known in
private theorem checkHas_grows (type : RelationType) :
    g.Grows (checkHas type v g place target).graph := by
  unfold checkHas
  split
  · exact .refl g
  · rename_i key keyed
    have keyField : g.Grows (g.modifyEntity place
        (withKeyField g.options.foreignKeyNullable key v.entity)) :=
      Graph.grows_modifyEntity known fun e _ =>
        e.grows_withKeyField (Relation.filled?_eq_some.1 keyed).2 owner _
    dsimp only
    split
    · exact keyField
    · exact keyField.trans (addInverse_grows (keyField.knownPlaces ▸ known)
        fun r => added_of_inverseDraft (.inl rfl))

include known in
private theorem checkBelongsToMany_grows : g.Grows (checkBelongsToMany v g place target).graph := by
  unfold checkBelongsToMany
  split
  · exact .refl g
  · split
    · exact .refl g
    · exact addInverse_grows known fun r => added_of_inverseDraft (.inr rfl)

include listed owner in
/-- A check of one relation, whatever comes of it, lets the graph grow. -/
theorem checkRelation_grows : g.Grows (checkRelation v g).graph := by
  unfold checkRelation
  split
  · exact .refl g
  · rename_i type _
    split
    · split
      · exact .refl g
      · split
        · exact .refl g
        · rename_i place located
          have known := Graph.mem_knownPlaces_of_locate? located
          split
          · exact .refl g
          · rename_i target found
            unfold checkWithTarget
            split
            · exact checkBelongsTo_grows listed known found
            · exact checkHas_grows owner known _
            · exact checkHas_grows owner known _
            · exact checkBelongsToMany_grows known
            · exact .refl g
    · exact .refl g

end

private theorem andThen_grows {g : Graph} {o : Outcome} {next : Graph → Outcome}
    (first : g.Grows o.graph) (last : o.graph.Grows (next o.graph).graph) :
    g.Grows (o.andThen next).graph := by
  unfold Outcome.andThen
  split
  · exact first.trans last
  · exact first

theorem checkRelations_grows {place : Nat} {entity : String} {position : Nat} {rs : List Relation}
    {g : Graph} (listed : place ∈ g.order) (owner : entity ∈ g.knownNames) :
    g.Grows (checkRelations place entity position rs g).graph := by
  induction rs generalizing position g with
  | nil => exact .refl g
  | cons r rest ih =>
    rw [checkRelations]
    have first : g.Grows (checkRelation ⟨place, entity, r, relationLabel r position⟩ g).graph :=
      checkRelation_grows listed owner
    exact andThen_grows first (ih (first.order ▸ listed) (first.knownNames ▸ owner))

theorem checkEntity_grows {seen : List String} {position place : Nat} {e : Entity} {g : Graph}
    (listed : place ∈ g.order) (found : g.store[place]? = some e) :
    g.Grows (checkEntity seen position place e g).graph := by
  unfold checkEntity
  split
  · exact .refl g
  · exact checkRelations_grows listed
      (Graph.mem_knownNames (Graph.mem_knownPlaces_of_order listed) found)

theorem checkEntities_grows {places : List Nat} {g : Graph} (listed : places ⊆ g.order)
    (position : Nat) (seen : List String) :
    g.Grows (checkEntities places position seen g).graph := by
  induction places generalizing position seen g with
  | nil => exact .refl g
  | cons place rest ih =>
    obtain ⟨here, later⟩ := List.cons_subset.1 listed
    rw [checkEntities]
    split
    · exact ih later _ _
    · rename_i e found
      have first : g.Grows (checkEntity seen position place e g).graph :=
        checkEntity_grows here found
      exact andThen_grows first (ih (first.order ▸ later) _ _)

end Check

/-- A check lets the frozen graph grow, whether it passes or not. -/
theorem Graph.check_grows (g : Graph) : g.freeze.Grows g.check.graph :=
  Check.checkEntities_grows (List.Subset.refl _) _ _

/-! ## Old parts and new ones -/

/-- Whether an entity is one of a graph: one of its list or one that it has for a name. The index
    still has an entity that the list has lost since the graph has been frozen. -/
def Graph.Has (g : Graph) (e : Entity) : Prop :=
  e ∈ g.entities ∨ ∃ name, g.getEntity? name = some e

/-- A frozen graph whose list has lost `B` still has it by its name, and the key of `A` refers to
    it. -/
example :
    let here : Relation :=
      { type := some .belongsTo, owner := "A", target := some "B", foreignKey := some "b_id" }
    let there : Relation :=
      { type := some .hasMany, owner := "B", target := some "A", foreignKey := some "b_id" }
    let a : Entity :=
      { name := "A", fields := [{ name := "id", type := some .integer }], relations := [here] }
    let b : Entity := { name := "B", relations := [there] }
    let checked := { Graph.freeze { store := [a, b] } with order := [0] }.check
    checked.fault = none ∧ checked.graph.entityNames = ["A"] ∧
      (checked.graph.getEntity? "B").map Entity.name = some "B" ∧
      checked.graph.entities.flatMap (·.fields.map Field.belongsTo) = [none, some "B"] := by
  decide +kernel

end EntityGraph
