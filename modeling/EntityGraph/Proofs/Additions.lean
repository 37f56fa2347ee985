import EntityGraph.Proofs.Effect
import Mathlib.Data.List.Nodup

/-!
What a check adds when it passes. An entity gains a relation for each other one that leads to it
without a way back, and a field for each foreign key that has none. Everything is given in terms of
the graph before the check, so neither the additions themselves nor the order in which they are made
have a part in it.
-/
namespace EntityGraph

/-- The keys that the relations of a graph claim fields for in an entity, in order, each with the
    name of the entity that the field is to refer to. -/
def Graph.claims (g : Graph) (e : Entity) : List (String × String) :=
  g.entities.flatMap fun owner => owner.relations.filterMap (Check.claim? e.name owner.name)

/-- The relations that an entity gains. From each owner of relations to it that lack a way back it
    gains exactly one way back, made from the first of them. -/
structure Graph.GainsRelations (g : Graph) (e : Entity) (gained : List Relation) : Prop where
  belongs : ∀ owner ∈ g.entities,
    gained.filter (fun r => r.type == some .belongsTo && r.pointsTo owner.name) =
      if Check.leadsTo e [.belongsTo] owner.name then []
      else ((owner.relations.find? fun r =>
        (r.type == some .hasOne || r.type == some .hasMany) && r.pointsTo e.name).map
          (Check.belongsBack g.options e.name owner.name)).toList
  pairs : ∀ owner ∈ g.entities, ∀ pivot,
    gained.filter (fun r => r.type == some .belongsToMany && r.pivotTable == some pivot &&
      r.pointsTo owner.name) =
      if Check.leadsThrough e pivot owner.name then []
      else ((owner.relations.find? fun r => r.type == some .belongsToMany &&
        r.pivotTable == some pivot && r.pointsTo e.name).map
          (Check.pairsBack g.options e.name owner.name)).toList
  nothingElse : ∀ r ∈ gained, ∃ owner ∈ g.entities, r.target = some owner.name ∧
    (r.type = some .belongsTo ∨ r.type = some .belongsToMany ∧ ∃ pivot, r.pivotTable = some pivot)

/-- The fields that an entity gains: for each key that has none exactly one, which refers to the
    entity of the first claim. -/
structure Graph.GainsFields (g : Graph) (e : Entity) (gained : List Field) : Prop where
  names : ∀ key, (∃ f ∈ gained, f.name = key) ↔ e.hasField key = false ∧
    ((∃ r ∈ e.relations, r.type = some .belongsTo ∧ r.foreignKey = some key) ∨
      ∃ owner ∈ g.entities, ∃ r ∈ owner.relations,
        (r.type = some .hasOne ∨ r.type = some .hasMany) ∧ r.target = some e.name ∧
          r.foreignKey = some key)
  fields : ∀ key, gained.filter (·.name == key) = if e.hasField key then []
    else (((g.claims e).lookup key).map
      (Check.keyField g.options.foreignKeyNullable key)).toList

/-- An entity as a check that passes leaves it: with what it gains behind what it has had. The
    fields that it has had are as before, but the first one of a name that is claimed as a key
    refers to the entity of the first claim if it has referred to none. -/
structure Graph.Completes (g : Graph) (e e' : Entity) : Prop where
  name : e'.name = e.name
  table : e'.table = e.table
  settings : e'.settings = e.settings
  relations : ∃ gained, e'.relations = e.relations ++ gained ∧ g.GainsRelations e gained
  fields : ∃ gained, e'.fields = Check.referFirst (g.claims e) e.fields ++ gained ∧
    g.GainsFields e gained

/-- A graph as a check that passes leaves it. -/
structure Graph.Completed (g g' : Graph) : Prop where
  app : g'.app = g.app
  enums : g'.enums = g.enums
  options : g'.options = g.options
  index : g'.index = g.index
  entities : List.Forall₂ g.Completes g.entities g'.entities

namespace Check

variable {g g' : Graph} {e : Entity}

/-! ## Ways back -/

/-- The relations that those of a graph want to lead back from an entity. -/
def backs (g : Graph) (e : Entity) : List Relation :=
  g.entities.flatMap fun owner => owner.relations.filterMap (back? g.options e.name owner.name)

private theorem findSome?_of_single {α β : Type} {f : α → Option β} {xs : List α} {a : α}
    (member : a ∈ xs) (others : ∀ x ∈ xs, f x = none ∨ x = a) : xs.findSome? f = f a := by
  induction xs with
  | nil => cases member
  | cons x rest ih =>
    have later : ∀ x ∈ rest, f x = none ∨ x = a :=
      fun x inside => others x (List.mem_cons_of_mem _ inside)
    rw [List.findSome?_cons]
    cases found : f x with
    | some b =>
      rcases others x List.mem_cons_self with nothing | rfl
      · rw [found] at nothing
        cases nothing
      · exact found.symm
    | none =>
      rcases List.mem_cons.1 member with rfl | inside
      · rw [found]
        refine List.findSome?_eq_none_iff.2 fun x inside => ?_
        rcases later x inside with nothing | rfl
        · exact nothing
        · exact found
      · exact ih inside later

theorem target_of_back? {options : GraphOptions} {entity owner : String} {r back : Relation}
    (made : back? options entity owner r = some back) : back.target = some owner := by
  obtain ⟨-, ⟨-, rfl⟩ | ⟨-, rfl⟩⟩ := back?_eq_some.1 made <;> rfl

/-- The first way back to an owner comes from the first of its relations that wants one. -/
private theorem find?_backs (distinct : g.entityNames.Nodup) {owner : Entity}
    (member : owner ∈ g.entities) {test wants : Relation → Bool} {make : Relation → Relation}
    (leads : ∀ back, test back = true → back.target = some owner.name)
    (wanted : ∀ r back, back? g.options e.name owner.name r = some back → test back = true →
      wants r = true)
    (made : ∀ r, wants r = true → back? g.options e.name owner.name r = some (make r) ∧
      test (make r) = true) :
    (backs g e).find? test = (owner.relations.find? wants).map make := by
  have meets : ∀ r, (back? g.options e.name owner.name r).any test = wants r := by
    intro r
    rw [Bool.eq_iff_iff, Option.any_eq_true]
    constructor
    · rintro ⟨back, same, passes⟩
      exact wanted r back same passes
    · intro wants
      exact ⟨make r, made r wants⟩
  rw [backs, List.find?_flatMap, findSome?_of_single member]
  · rw [List.find?_filterMap]
    simp only [meets]
    cases found : owner.relations.find? wants with
    | none => rfl
    | some r => exact (made r (List.find?_some found)).1
  · -- Names tell owners apart, so no other one wants a way back to this one.
    intro other inside
    cases found : (other.relations.filterMap (back? g.options e.name other.name)).find? test with
    | none => exact .inl rfl
    | some back =>
      obtain ⟨r, -, same⟩ := List.mem_filterMap.1 (List.mem_of_find?_eq_some found)
      have named : other.name = owner.name := Option.some.inj
        ((target_of_back? same).symm.trans (leads back (List.find?_some found)))
      exact .inr (List.inj_on_of_nodup_map distinct inside member named)

private theorem find?_backs_belongsTo (distinct : g.entityNames.Nodup) {owner : Entity}
    (member : owner ∈ g.entities) :
    (backs g e).find? (fun r => r.type == some .belongsTo && r.pointsTo owner.name) =
      (owner.relations.find? fun r =>
        (r.type == some .hasOne || r.type == some .hasMany) && r.pointsTo e.name).map
          (belongsBack g.options e.name owner.name) := by
  refine find?_backs distinct member ?_ ?_ ?_
  · intro back passes
    simp only [Relation.pointsTo, Bool.and_eq_true, beq_iff_eq] at passes
    exact passes.2
  · intro r back made passes
    obtain ⟨leads, ⟨typed, -⟩ | ⟨-, rfl⟩⟩ := back?_eq_some.1 made
    · simpa [Relation.pointsTo, leads] using typed
    · simp [pairsBack] at passes
  · intro r wants
    simp only [Relation.pointsTo, Bool.and_eq_true, Bool.or_eq_true, beq_iff_eq] at wants
    exact ⟨back?_eq_some.2 ⟨wants.2, .inl ⟨wants.1, rfl⟩⟩,
      by simp [belongsBack, Relation.pointsTo]⟩

private theorem find?_backs_belongsToMany (distinct : g.entityNames.Nodup) {owner : Entity}
    (member : owner ∈ g.entities) (pivot : String) :
    (backs g e).find? (fun r => r.type == some .belongsToMany && r.pivotTable == some pivot &&
        r.pointsTo owner.name) =
      (owner.relations.find? fun r => r.type == some .belongsToMany &&
        r.pivotTable == some pivot && r.pointsTo e.name).map
          (pairsBack g.options e.name owner.name) := by
  refine find?_backs distinct member ?_ ?_ ?_
  · intro back passes
    simp only [Relation.pointsTo, Bool.and_eq_true, beq_iff_eq] at passes
    exact passes.2
  · intro r back made passes
    obtain ⟨leads, ⟨-, rfl⟩ | ⟨typed, rfl⟩⟩ := back?_eq_some.1 made
    · simp [belongsBack] at passes
    · simpa [pairsBack, Relation.pointsTo, typed, leads] using passes
  · intro r wants
    simp only [Relation.pointsTo, Bool.and_eq_true, beq_iff_eq] at wants
    exact ⟨back?_eq_some.2 ⟨wants.2, .inr ⟨wants.1.1, rfl⟩⟩,
      by simp [pairsBack, Relation.pointsTo, wants.1.2]⟩

private theorem gainsRelations (distinct : g.entityNames.Nodup)
    (tabled : ∀ owner ∈ g.entities, ∀ r ∈ owner.relations, r.type = some .belongsToMany →
      ∃ pivot, r.pivotTable = some pivot) {gained : List Relation}
    (lacked : Lacked way e.relations (backs g e) gained) : g.GainsRelations e gained := by
  refine ⟨?_, ?_, ?_⟩
  · intro owner member
    have single := lacked.filter (some .belongsTo, some owner.name, none)
    rw [← leadsTo_belongsTo_eq_any] at single
    simp only [way_eq_belongsTo] at single
    rw [single, find?_backs_belongsTo distinct member]
  · intro owner member pivot
    have single := lacked.filter (some .belongsToMany, some owner.name, some pivot)
    rw [← leadsThrough_eq_any] at single
    simp only [way_eq_belongsToMany] at single
    rw [single, find?_backs_belongsToMany distinct member]
  · intro back member
    obtain ⟨owner, inside, wanted⟩ := List.mem_flatMap.1 (lacked.among back member)
    obtain ⟨r, owned, made⟩ := List.mem_filterMap.1 wanted
    refine ⟨owner, inside, target_of_back? made, ?_⟩
    obtain ⟨-, ⟨-, rfl⟩ | ⟨typed, rfl⟩⟩ := back?_eq_some.1 made
    · exact .inl rfl
    · exact .inr ⟨rfl, tabled owner inside r owned typed⟩

/-! ## Fields -/

private theorem isSome_lookup_claims (distinct : g.entityNames.Nodup) (member : e ∈ g.entities)
    (leading : ∀ r ∈ e.relations, r.type = some .belongsTo → ∃ name, r.target = some name)
    (key : String) : ((g.claims e).lookup key).isSome = true ↔
      (∃ r ∈ e.relations, r.type = some .belongsTo ∧ r.foreignKey = some key) ∨
        ∃ owner ∈ g.entities, ∃ r ∈ owner.relations,
          (r.type = some .hasOne ∨ r.type = some .hasMany) ∧ r.target = some e.name ∧
            r.foreignKey = some key := by
  rw [List.lookup_isSome_iff]
  simp only [Graph.claims, List.mem_flatMap, List.mem_filterMap, beq_iff_eq]
  constructor
  · rintro ⟨⟨_, target⟩, ⟨owner, inside, r, owned, claimed⟩, rfl⟩
    rcases claim?_eq_some.1 claimed with ⟨typed, same, keyed, -⟩ | ⟨typed, leads, keyed, -⟩
    · rw [List.inj_on_of_nodup_map distinct inside member same] at owned
      exact .inl ⟨r, owned, typed, keyed⟩
    · exact .inr ⟨owner, inside, r, owned, typed, leads, keyed⟩
  · rintro (⟨r, owned, typed, keyed⟩ | ⟨owner, inside, r, owned, typed, leads, keyed⟩)
    · obtain ⟨target, leads⟩ := leading r owned typed
      exact ⟨(key, target), ⟨e, member, r, owned,
        claim?_eq_some.2 (.inl ⟨typed, rfl, keyed, leads⟩)⟩, rfl⟩
    · exact ⟨(key, owner.name), ⟨owner, inside, r, owned,
        claim?_eq_some.2 (.inr ⟨typed, leads, keyed, rfl⟩)⟩, rfl⟩

private theorem gainsFields (distinct : g.entityNames.Nodup) (member : e ∈ g.entities)
    (leading : ∀ r ∈ e.relations, r.type = some .belongsTo → ∃ name, r.target = some name)
    {gained : List Field} (filters : ∀ key, gained.filter (·.name == key) =
      if e.hasField key then []
      else (((g.claims e).lookup key).map (keyField g.options.foreignKeyNullable key)).toList) :
    g.GainsFields e gained := by
  refine ⟨fun key => ?_, filters⟩
  rw [← isSome_lookup_claims distinct member leading]
  have there : (∃ f ∈ gained, f.name = key) ↔ gained.filter (·.name == key) ≠ [] := by
    rw [Ne, List.filter_eq_nil_iff]
    simp
  rw [there, filters]
  cases e.hasField key with
  | true => simp
  | false => cases (g.claims e).lookup key <;> simp

end Check

/-- A check that passes adds exactly what the graph before it lacks. -/
theorem Graph.completed_of_passed {g : Graph} (built : g.Built) (passed : g.check.fault = none) :
    g.Completed g.check.graph := by
  have fresh := built.fresh
  obtain ⟨run, sound⟩ := fresh.run_of_passed passed
  have distinct := sound.nodup fresh
  have grown := run.grows
  have settled : ∀ {i e}, g.store[i]? = some e → ∀ r ∈ e.relations,
      Check.Settled g.check.graph i e.name r := by
    intro i e found r member
    obtain ⟨label, visited⟩ := Check.exists_visitsAt found member
    have inside := (List.getElem?_eq_some_iff.1 found).1
    exact run.settles _ (Check.mem_visitsBefore.2 ⟨i, inside, visited⟩)
  refine ⟨grown.app, grown.enums, grown.options, grown.index, ?_⟩
  rw [fresh.entities_eq, (fresh.grow grown).entities_eq, List.forall₂_iff_get]
  refine ⟨grown.store.length_eq, fun i inside inside' => ?_⟩
  have found := List.getElem?_eq_getElem inside
  have found' := List.getElem?_eq_getElem inside'
  simp only [List.get_eq_getElem]
  generalize g.store[i] = e at found
  generalize g.check.graph.store[i] = e' at found'
  have member : e ∈ g.entities := fresh.entities_eq ▸ List.mem_of_getElem? found
  have grows := grown.between found found'
  obtain ⟨relations, fields⟩ := run.effect fresh distinct found found'
  rw [Check.filterMap_visitsBefore, List.take_length, ← fresh.entities_eq] at relations
  rw [Check.filterMap_visitsBefore, List.take_length, ← fresh.entities_eq] at fields
  refine ⟨grows.name, grows.table, grows.settings, ?_, ?_⟩
  · obtain ⟨gained, same, lacked⟩ := Check.exists_lacked Check.way e.relations (Check.backs g e)
    refine ⟨gained, relations.trans same, Check.gainsRelations distinct ?_ lacked⟩
    intro owner among r owned typed
    obtain ⟨j, found1⟩ := List.mem_iff_getElem?.1 (fresh.entities_eq ▸ among)
    obtain ⟨_, _, pivot, -, tabled, -⟩ := (settled found1 r owned).pairs_of_typed typed
    exact ⟨pivot, (Relation.filled?_eq_some.1 tabled).1⟩
  · obtain ⟨gained, same, filters⟩ :=
      Check.exists_claimFields g.options.foreignKeyNullable e.fields (g.claims e)
    refine ⟨gained, fields.trans same, Check.gainsFields distinct member ?_ filters⟩
    intro r owned typed
    obtain ⟨_, t, _, _, target, -⟩ := (settled found r owned).belongs_of_typed typed
    exact ⟨t.name, target.target⟩

/-- Posts and tags gain a way back to each other's owners, and posts gain a key. -/
theorem Graph.completed_of_passed_blog : ∃ g warnings,
    Loader.build {} (some (Document.blog "Tag")) (.text "json") = .ok (g, warnings) ∧
      g.check.fault = none ∧ g.Completed g.check.graph := by
  have passes : Loader.builds {} (some (Document.blog "Tag")) (.text "json") (fun g =>
      g.check.fault == none) = true := by
    decide +kernel
  obtain ⟨g, warnings, done, passed⟩ := Loader.exists_of_builds passes
  have clean : g.check.fault = none := by simpa using passed
  exact ⟨g, warnings, done, clean, Graph.completed_of_passed ⟨_, _, _, _, done⟩ clean⟩

end EntityGraph
