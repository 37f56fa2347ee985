import EntityGraph.Proofs.Run

/-!
The integrity of graphs that have passed a check: names tell entities apart, every relation leads to
an entity, keys have their fields, and what leads somewhere is led back to. It holds of the relations
that the check has added as well, wherever it has added them.
-/
namespace EntityGraph

/-- A relation leads to an entity, which is the one that its target names. -/
structure Graph.Leads (g : Graph) (r : Relation) (t : Entity) : Prop where
  target : r.target = some t.name
  found : g.getEntity? t.name = some t

/-- The integrity of a graph. -/
structure Graph.Integral (g : Graph) : Prop where
  distinct : g.entityNames.Nodup
  named : ∀ e ∈ g.entities, e.name ≠ ""
  fields : ∀ e ∈ g.entities, e.fields ≠ []
  complete : ∀ e ∈ g.entities, ∀ f ∈ e.fields, f.name ≠ "" ∧ f.type ≠ none
  typed : ∀ e ∈ g.entities, ∀ r ∈ e.relations, r.type ≠ none
  leads : ∀ e ∈ g.entities, ∀ r ∈ e.relations, r.type ≠ some .morphTo → ∃ t, g.Leads r t
  belongs : ∀ e ∈ g.entities, ∀ r ∈ e.relations, r.type = some .belongsTo →
    ∃ t key, g.Leads r t ∧ r.foreignKey = some key ∧ key ≠ "" ∧ e.HasKey key ∧
      ∃ back ∈ t.relations, (back.type = some .hasOne ∨ back.type = some .hasMany) ∧
        back.target = some e.name
  has : ∀ e ∈ g.entities, ∀ r ∈ e.relations, (r.type = some .hasOne ∨ r.type = some .hasMany) →
    ∃ t key, g.Leads r t ∧ r.foreignKey = some key ∧ key ≠ "" ∧ t.HasKey key ∧
      ∃ back ∈ t.relations, back.type = some .belongsTo ∧ back.target = some e.name
  pairs : ∀ e ∈ g.entities, ∀ r ∈ e.relations, r.type = some .belongsToMany →
    ∃ t pivot, g.Leads r t ∧ r.pivotTable = some pivot ∧ pivot ≠ "" ∧
      ∃ back ∈ t.relations, back.type = some .belongsToMany ∧ back.pivotTable = some pivot ∧
        back.target = some e.name

theorem Graph.Target.leads {g : Graph} {r : Relation} {place : Nat} {t : Entity}
    (target : g.Target r place t) : g.Leads r t :=
  ⟨target.target, target.getEntity?⟩

namespace Check

/-! ## Settled relations -/

section
variable {g : Graph} {place : Nat} {e : Entity} {r : Relation}
  (settled : Settled g place e.name r)
include settled

private theorem Settled.leads (needed : r.type ≠ some .morphTo) : ∃ t, g.Leads r t := by
  cases settled with
  | free typed => exact absurd typed needed
  | morph _ _ target | belongs _ target | has _ target | pairs _ target => exact ⟨_, target.leads⟩

private theorem Settled.back_of_belongs (found : g.store[place]? = some e)
    (typed : r.type = some .belongsTo) :
    ∃ t key, g.Leads r t ∧ r.foreignKey = some key ∧ key ≠ "" ∧ e.HasKey key ∧
      ∃ back ∈ t.relations, (back.type = some .hasOne ∨ back.type = some .hasMany) ∧
        back.target = some e.name := by
  obtain ⟨_, t, owner, key, target, keyed, inverse, there, field⟩ :=
    settled.belongs_of_typed typed
  obtain rfl : owner = e := Option.some.inj (there.symm.trans found)
  obtain ⟨given, filled⟩ := Relation.filled?_eq_some.1 keyed
  obtain ⟨back, member, ⟨type, among, same⟩, leads⟩ := leadsTo_iff.1 inverse
  refine ⟨t, key, target.leads, given, filled, field, back, member, ?_, leads⟩
  simpa [same] using among

private theorem Settled.back_of_has (typed : r.type = some .hasOne ∨ r.type = some .hasMany) :
    ∃ t key, g.Leads r t ∧ r.foreignKey = some key ∧ key ≠ "" ∧ t.HasKey key ∧
      ∃ back ∈ t.relations, back.type = some .belongsTo ∧ back.target = some e.name := by
  obtain ⟨_, t, key, target, keyed, field, inverse⟩ := settled.has_of_typed typed
  obtain ⟨given, filled⟩ := Relation.filled?_eq_some.1 keyed
  obtain ⟨back, member, ⟨type, among, same⟩, leads⟩ := leadsTo_iff.1 inverse
  refine ⟨t, key, target.leads, given, filled, field, back, member, ?_, leads⟩
  simpa [same] using among

private theorem Settled.back_of_pairs (typed : r.type = some .belongsToMany) :
    ∃ t pivot, g.Leads r t ∧ r.pivotTable = some pivot ∧ pivot ≠ "" ∧
      ∃ back ∈ t.relations, back.type = some .belongsToMany ∧ back.pivotTable = some pivot ∧
        back.target = some e.name := by
  obtain ⟨_, t, pivot, target, tabled, inverse⟩ := settled.pairs_of_typed typed
  obtain ⟨given, filled⟩ := Relation.filled?_eq_some.1 tabled
  exact ⟨t, pivot, target.leads, given, filled, leadsThrough_iff.1 inverse⟩

end

/-! ## Checks that pass -/

section
variable {g : Graph} (fresh : g.Fresh) (passed : g.check.fault = none) {e : Entity}
  (member : e ∈ g.check.graph.entities)
include fresh passed member

private theorem sound_of_passed : ∃ seen, Sound seen e := by
  obtain ⟨run, sound⟩ := fresh.run_of_passed passed
  rw [(fresh.grow run.grows).entities_eq] at member
  obtain ⟨i, inside, rfl⟩ := List.mem_iff_getElem.1 member
  rw [run.grows.store.length_eq] at sound
  exact ⟨_, sound.entity inside (List.getElem?_eq_getElem inside)⟩

/-- All relations are settled in the end, also those that the check has never looked at. -/
theorem settled_of_passed : ∃ i, g.check.graph.store[i]? = some e ∧
    ∀ r ∈ e.relations, Settled g.check.graph i e.name r := by
  obtain ⟨run, -⟩ := fresh.run_of_passed passed
  rw [(fresh.grow run.grows).entities_eq] at member
  obtain ⟨i, found⟩ := List.mem_iff_getElem?.1 member
  obtain ⟨before, found', -⟩ := run.grows.entity_before found
  have inside := (List.getElem?_eq_some_iff.1 found').1
  exact ⟨i, found, run.settled_of_visited found' found fun v visited =>
    mem_visitsBefore.2 ⟨i, inside, visited⟩⟩

end

end Check

/-- A graph that passes its check has integrity afterwards. -/
theorem Graph.integral_of_passed {g : Graph} (built : g.Built) (passed : g.check.fault = none) :
    g.check.graph.Integral := by
  have fresh := built.fresh
  obtain ⟨run, sound⟩ := fresh.run_of_passed passed
  have distinct := run.grows.entityNames ▸ sound.nodup fresh
  have soundly := fun e => Check.sound_of_passed (e := e) fresh passed
  have settled := fun e => Check.settled_of_passed (e := e) fresh passed
  refine ⟨distinct, ?_, ?_, ?_, ?_, ?_, ?_, ?_, ?_⟩
  · intro e member
    obtain ⟨seen, here⟩ := soundly e member
    exact here.named
  · intro e member
    obtain ⟨seen, here⟩ := soundly e member
    exact here.fields
  · intro e member
    obtain ⟨seen, here⟩ := soundly e member
    exact here.complete
  · intro e member
    obtain ⟨seen, here⟩ := soundly e member
    exact here.typed
  · intro e member r owned needed
    obtain ⟨i, -, all⟩ := settled e member
    exact (all r owned).leads needed
  · intro e member r owned typed
    obtain ⟨i, found, all⟩ := settled e member
    exact (all r owned).back_of_belongs found typed
  · intro e member r owned typed
    obtain ⟨i, -, all⟩ := settled e member
    exact (all r owned).back_of_has typed
  · intro e member r owned typed
    obtain ⟨i, -, all⟩ := settled e member
    exact (all r owned).back_of_pairs typed

/-- Tags lead to themselves and get a way back behind the relation that they have. -/
theorem Graph.integral_of_passed_blog : ∃ g warnings,
    Loader.build {} (some (Document.blog "Tag")) (.text "json") = .ok (g, warnings) ∧
      g.check.fault = none ∧ g.check.graph.Integral := by
  have passes : Loader.builds {} (some (Document.blog "Tag")) (.text "json") (fun g =>
      g.check.fault == none) = true := by
    decide +kernel
  obtain ⟨g, warnings, done, passed⟩ := Loader.exists_of_builds passes
  have clean : g.check.fault = none := by simpa using passed
  exact ⟨g, warnings, done, clean, Graph.integral_of_passed ⟨_, _, _, _, done⟩ clean⟩

end EntityGraph
