import EntityGraph.Proofs.Completion

/-!
Settled relations: those that have all that a check asks for, so that it has nothing to add. A
relation that passes its check is settled from then on. A relation that a check adds is settled from
the start, although that check may never look at it.
-/
namespace EntityGraph.Check

/-- A relation of the entity at a place has all that a check asks for. -/
inductive Settled (g : Graph) (place : Nat) (entity : String) (r : Relation) : Prop
  | free (typed : r.type = some .morphTo)
  | morph {type : RelationType} {there : Nat} {t : Entity} (typed : r.type = some type)
      (polymorphic : type.isPolymorphic = true) (target : g.Target r there t)
  | belongs {there : Nat} {t e : Entity} {key : String} (typed : r.type = some .belongsTo)
      (target : g.Target r there t) (keyed : Relation.filled? r.foreignKey = some key)
      (inverse : leadsTo t [.hasOne, .hasMany] entity = true)
      (owner : g.store[place]? = some e) (field : e.HasKey key)
  | has {there : Nat} {t : Entity} {key : String}
      (typed : r.type = some .hasOne ∨ r.type = some .hasMany) (target : g.Target r there t)
      (keyed : Relation.filled? r.foreignKey = some key) (field : t.HasKey key)
      (inverse : leadsTo t [.belongsTo] entity = true)
  | pairs {there : Nat} {t : Entity} {pivot : String} (typed : r.type = some .belongsToMany)
      (target : g.Target r there t) (tabled : Relation.filled? r.pivotTable = some pivot)
      (inverse : leadsThrough t pivot entity = true)

/-- A visit of a relation that the graph has, by the first entity of its name. -/
structure Visit.Owned (v : Visit) (g : Graph) : Prop where
  located : g.locate? v.entity = some v.place
  owner : ∃ e, g.store[v.place]? = some e ∧ e.name = v.entity ∧ v.relation ∈ e.relations

/-- Growth by nothing but fields and settled relations. -/
structure Repairs (g g' : Graph) : Prop where
  grows : g.Grows g'
  adds : ∀ {place : Nat} {e : Entity}, g.store[place]? = some e →
    ∃ e' added, g'.store[place]? = some e' ∧ e'.relations = e.relations ++ added ∧
      ∀ r ∈ added, Settled g' place e.name r

/-! ## What is settled, by type -/

section
variable {g : Graph} {place : Nat} {entity : String} {r : Relation}
  (settled : Settled g place entity r)
include settled

theorem Settled.belongs_of_typed (typed : r.type = some .belongsTo) :
    ∃ there t e key, g.Target r there t ∧ Relation.filled? r.foreignKey = some key ∧
      leadsTo t [.hasOne, .hasMany] entity = true ∧ g.store[place]? = some e ∧
      e.HasKey key := by
  cases settled with
  | belongs _ target keyed inverse owner field =>
    exact ⟨_, _, _, _, target, keyed, inverse, owner, field⟩
  | free typed' | pairs typed' => rw [typed] at typed'; cases typed'
  | morph typed' polymorphic => rw [typed] at typed'; cases typed'; cases polymorphic
  | has typed' => rcases typed' with typed' | typed' <;> (rw [typed] at typed'; cases typed')

theorem Settled.has_of_typed (typed : r.type = some .hasOne ∨ r.type = some .hasMany) :
    ∃ there t key, g.Target r there t ∧ Relation.filled? r.foreignKey = some key ∧
      t.HasKey key ∧ leadsTo t [.belongsTo] entity = true := by
  cases settled with
  | has _ target keyed field inverse => exact ⟨_, _, _, target, keyed, field, inverse⟩
  | free typed' | belongs typed' | pairs typed' =>
    rcases typed with typed | typed <;> (rw [typed] at typed'; cases typed')
  | morph typed' polymorphic =>
    rcases typed with typed | typed <;> (rw [typed] at typed'; cases typed'; cases polymorphic)

theorem Settled.pairs_of_typed (typed : r.type = some .belongsToMany) :
    ∃ there t pivot, g.Target r there t ∧ Relation.filled? r.pivotTable = some pivot ∧
      leadsThrough t pivot entity = true := by
  cases settled with
  | pairs _ target tabled inverse => exact ⟨_, _, _, target, tabled, inverse⟩
  | free typed' | belongs typed' => rw [typed] at typed'; cases typed'
  | morph typed' polymorphic => rw [typed] at typed'; cases typed'; cases polymorphic
  | has typed' => rcases typed' with typed' | typed' <;> (rw [typed] at typed'; cases typed')

end

/-! ## Growth -/

/-- What is settled stays settled. -/
theorem Settled.grow {g g' : Graph} {place : Nat} {entity : String} {r : Relation}
    (settled : Settled g place entity r) (grown : g.Grows g') : Settled g' place entity r := by
  cases settled with
  | free typed => exact .free typed
  | morph typed polymorphic target =>
    obtain ⟨t', target', -⟩ := target.grow grown
    exact .morph typed polymorphic target'
  | belongs typed target keyed inverse owner field =>
    obtain ⟨t', target', grows⟩ := target.grow grown
    obtain ⟨e', owner', grows'⟩ := grown.entity owner
    exact .belongs typed target' keyed (leadsTo_of_grows grows inverse) owner'
      (hasKey_of_grows grows' field)
  | has typed target keyed field inverse =>
    obtain ⟨t', target', grows⟩ := target.grow grown
    exact .has typed target' keyed (hasKey_of_grows grows field) (leadsTo_of_grows grows inverse)
  | pairs typed target tabled inverse =>
    obtain ⟨t', target', grows⟩ := target.grow grown
    exact .pairs typed target' tabled (leadsThrough_of_grows grows inverse)

theorem Visit.Owned.grow {v : Visit} {g g' : Graph} (owned : v.Owned g) (grown : g.Grows g') :
    v.Owned g' := by
  obtain ⟨e, found, named, member⟩ := owned.owner
  obtain ⟨e', found', grows⟩ := grown.entity found
  exact ⟨by rw [grown.locate?]; exact owned.located, e', found', by rw [grows.name, named],
    mem_relations_of_grows grows member⟩

theorem Visit.Owned.named {v : Visit} {g : Graph} (owned : v.Owned g) : v.entity ≠ "" := by
  intro unnamed
  have located := owned.located
  rw [unnamed] at located
  cases located

theorem Visit.Owned.trimmed {v : Visit} {g : Graph} (owned : v.Owned g) (fresh : g.Fresh) :
    Text.Trimmed v.entity := by
  obtain ⟨e, found, named, -⟩ := owned.owner
  exact named ▸ fresh.trimmed e (List.mem_of_getElem? found)

theorem Visit.Owned.mem_knownNames {v : Visit} {g : Graph} (owned : v.Owned g) :
    v.entity ∈ g.knownNames := by
  obtain ⟨e, found, named, -⟩ := owned.owner
  exact named ▸ Graph.mem_knownNames (Graph.mem_knownPlaces_of_locate? owned.located) found

/-- Relations that name the owner of a visit have it as their target. -/
theorem Visit.Owned.target {v : Visit} {g : Graph} (owned : v.Owned g) {r : Relation}
    (leads : r.target = some v.entity) :
    ∃ e, g.Target r v.place e ∧ v.relation ∈ e.relations := by
  obtain ⟨e, found, named, member⟩ := owned.owner
  refine ⟨e, ⟨?_, ?_, ?_, found⟩, member⟩
  · rw [named, leads]
  · rw [named]; exact owned.named
  · rw [named]; exact owned.located

theorem Repairs.refl (g : Graph) : Repairs g g :=
  ⟨.refl g, fun {_ e} found => ⟨e, [], found, by simp, by simp⟩⟩

/-- The relations of an entity before and afterwards. -/
theorem Repairs.between {g g' : Graph} (repaired : Repairs g g') {place : Nat} {e e' : Entity}
    (found : g.store[place]? = some e) (found' : g'.store[place]? = some e') :
    ∃ added, e'.relations = e.relations ++ added ∧ ∀ r ∈ added, Settled g' place e.name r := by
  obtain ⟨other, added, there, same, settled⟩ := repaired.adds found
  exact ⟨added, Option.some.inj (there.symm.trans found') ▸ same, settled⟩

theorem Repairs.trans {g g' g'' : Graph} (first : Repairs g g') (last : Repairs g' g'') :
    Repairs g g'' := by
  refine ⟨first.grows.trans last.grows, fun {place e} found => ?_⟩
  obtain ⟨e', added, found', same, settled⟩ := first.adds found
  obtain ⟨e'', added', found'', same', settled'⟩ := last.adds found'
  refine ⟨e'', added ++ added', found'', by rw [same', same, List.append_assoc], ?_⟩
  intro r member
  rcases List.mem_append.1 member with old | new
  · exact (settled r old).grow last.grows
  · exact (first.grows.between found found').name ▸ settled' r new

/-! ## Changes of one entity -/

section
variable {g : Graph} {place : Nat}

theorem getElem?_modifyEntity {e : Entity} (found : g.store[place]? = some e)
    (f : Entity → Entity) : (g.modifyEntity place f).store[place]? = some (f e) := by
  simp [Graph.modifyEntity, found]

theorem getElem?_modifyEntity_ne {i : Nat} (apart : place ≠ i) (f : Entity → Entity) :
    (g.modifyEntity place f).store[i]? = g.store[i]? := by
  simp [Graph.modifyEntity, apart]

/-- A graph is repaired when one entity grows by settled relations. -/
theorem repairs_modifyEntity {f : Entity → Entity} (grown : g.Grows (g.modifyEntity place f))
    (adds : ∀ e, g.store[place]? = some e → ∃ added, (f e).relations = e.relations ++ added ∧
      ∀ r ∈ added, Settled (g.modifyEntity place f) place e.name r) :
    Repairs g (g.modifyEntity place f) := by
  refine ⟨grown, fun {i e} found => ?_⟩
  by_cases here : place = i
  · subst here
    obtain ⟨added, same, settled⟩ := adds e found
    exact ⟨f e, added, getElem?_modifyEntity found f, same, settled⟩
  · exact ⟨e, [], by rw [getElem?_modifyEntity_ne here, found], by simp, by simp⟩

end

/-! ## Relations that pass -/

section
variable {v : Visit} {g g' : Graph}

theorem Passes.grows (passes : Passes v g g') (owned : v.Owned g) : g.Grows g' := by
  cases passes with
  | free | morph => exact .refl g
  | @belongs _ t _ _ target keyed =>
    have there := Graph.mem_knownPlaces_of_locate? target.located
    have known := Graph.mem_knownNames there target.found
    have here := Graph.mem_knownPlaces_of_locate? owned.located
    exact Graph.grows_modifyEntity here fun e _ =>
      e.grows_withKeyField (Relation.filled?_eq_some.1 keyed).2 known _
  | has typed target keyed =>
    have there := Graph.mem_knownPlaces_of_locate? target.located
    exact Graph.grows_modifyEntity there fun e _ =>
      grows_completeHas _ _ _ (Relation.filled?_eq_some.1 keyed).2 owned.mem_knownNames e
  | pairs _ target =>
    have there := Graph.mem_knownPlaces_of_locate? target.located
    exact Graph.grows_modifyEntity there fun e _ => grows_completePairs _ _ _ _ e

/-- A relation that passes is settled. -/
theorem Passes.settles (passes : Passes v g g') (owned : v.Owned g) :
    Settled g' v.place v.entity v.relation := by
  have grown := passes.grows owned
  cases passes with
  | free typed => exact .free typed
  | morph typed polymorphic target => exact .morph typed polymorphic target
  | belongs typed target keyed inverse =>
    obtain ⟨t', target', grows⟩ := target.grow grown
    obtain ⟨e, found, -⟩ := owned.owner
    exact .belongs typed target' keyed (leadsTo_of_grows grows inverse)
      (getElem?_modifyEntity found _) (hasKey_withKeyField _ _ _ e)
  | has typed target keyed =>
    obtain ⟨t', target', -⟩ := target.grow grown
    have same := Option.some.inj (target'.found.symm.trans (getElem?_modifyEntity target.found _))
    refine .has typed target' keyed ?_ ?_
    · rw [same]; exact hasKey_completeHas _ _ _ _ _
    · rw [same]; exact leadsTo_completeHas _ _ _ _ _
  | pairs typed target tabled =>
    obtain ⟨t', target', -⟩ := target.grow grown
    have same := Option.some.inj (target'.found.symm.trans (getElem?_modifyEntity target.found _))
    refine .pairs typed target' tabled ?_
    rw [same]
    exact leadsThrough_completePairs _ _ _ (Relation.filled?_eq_some.1 tabled).1 _

/-- The relation that leads back from what an entity has is settled: its key has been given a field
    just before, and the relation that it leads back along is its inverse. -/
private theorem settled_belongsBack {place : Nat} {t : Entity} {key : String}
    (typed : v.relation.type = some .hasOne ∨ v.relation.type = some .hasMany) (owned : v.Owned g)
    (target : g.Target v.relation place t)
    (keyed : Relation.filled? v.relation.foreignKey = some key) (field : t.HasKey key)
    (options : GraphOptions) :
    Settled g place t.name (belongsBack options t.name v.entity v.relation) := by
  obtain ⟨e, back, member⟩ := owned.target (r := belongsBack options t.name v.entity v.relation) rfl
  refine .belongs rfl back keyed ?_ target.found field
  refine leadsTo_iff.2 ⟨v.relation, member, ?_, target.target⟩
  rcases typed with typed | typed <;> exact ⟨_, by simp, typed⟩

private theorem settled_pairsBack {place : Nat} {t : Entity} {pivot : String}
    (typed : v.relation.type = some .belongsToMany) (owned : v.Owned g)
    (target : g.Target v.relation place t)
    (tabled : Relation.filled? v.relation.pivotTable = some pivot) (options : GraphOptions) :
    Settled g place t.name (pairsBack options t.name v.entity v.relation) := by
  obtain ⟨e, back, member⟩ := owned.target (r := pairsBack options t.name v.entity v.relation) rfl
  refine .pairs rfl back tabled (leadsThrough_iff.2 ⟨v.relation, member, typed, ?_, target.target⟩)
  exact (Relation.filled?_eq_some.1 tabled).1

/-- A relation that passes leads to repairs only. -/
theorem Passes.repairs (passes : Passes v g g') (owned : v.Owned g) : Repairs g g' := by
  have grown := passes.grows owned
  have owned' := owned.grow grown
  cases passes with
  | free | morph => exact .refl g
  | belongs => exact repairs_modifyEntity grown fun e _ => ⟨[], by simp, by simp⟩
  | @has place t key typed target keyed =>
    refine repairs_modifyEntity grown fun e found => ?_
    -- Owner and target may be one entity, so both are looked up in the graph afterwards.
    obtain ⟨t', target', grows⟩ := target.grow grown
    have same := Option.some.inj (target'.found.symm.trans (getElem?_modifyEntity target.found _))
    obtain rfl : e = t := Option.some.inj (found.symm.trans target.found)
    have field : t'.HasKey key := same ▸ hasKey_completeHas _ _ _ _ _
    have settled := settled_belongsBack typed owned' target' keyed field g.options
    rw [grows.name] at settled
    rw [completeHas]
    split
    · exact ⟨[], by simp, by simp⟩
    · exact ⟨[belongsBack g.options e.name v.entity v.relation], by simp [Entity.addRelation],
        by simpa using settled⟩
  | @pairs place t pivot typed target tabled =>
    refine repairs_modifyEntity grown fun e found => ?_
    obtain ⟨t', target', grows⟩ := target.grow grown
    obtain rfl : e = t := Option.some.inj (found.symm.trans target.found)
    have settled := settled_pairsBack typed owned' target' tabled g.options
    rw [grows.name] at settled
    rw [completePairs]
    split
    · exact ⟨[], by simp, by simp⟩
    · exact ⟨[pairsBack g.options e.name v.entity v.relation], rfl, by simpa using settled⟩

/-! ## Settled relations pass and change nothing -/

theorem Settled.sound (settled : Settled g v.place v.entity v.relation) :
    relationFault? g v = none := by
  have known : ∀ {there : Nat} {t : Entity}, g.Target v.relation there t →
      Relation.filled? v.relation.target = some t.name ∧ g.getEntity? t.name = some t :=
    fun target => ⟨Relation.filled?_eq_some.2 ⟨target.target, target.named⟩, target.getEntity?⟩
  cases settled with
  | free typed => simp only [relationFault?, typed, RelationType.requiresTarget,
      Bool.false_eq_true, if_false]
  | morph typed polymorphic target =>
    obtain ⟨given, found⟩ := known target
    simp only [relationFault?, typed, given, found]
    split
    · rename_i type _ _ _
      cases type <;> first | rfl | cases polymorphic
    · rfl
  | belongs typed target keyed inverse =>
    obtain ⟨given, found⟩ := known target
    simp only [relationFault?, typed, given, found, RelationType.requiresTarget, if_true,
      kindFault?, keyed, inverse]
  | has typed target keyed =>
    obtain ⟨given, found⟩ := known target
    rcases typed with typed | typed <;>
      simp only [relationFault?, typed, given, found, RelationType.requiresTarget, if_true,
        kindFault?, keyed]
  | pairs typed target tabled =>
    obtain ⟨given, found⟩ := known target
    simp only [relationFault?, typed, given, found, RelationType.requiresTarget, if_true,
      kindFault?, tabled]

/-- When a settled relation passes, nothing changes. -/
theorem Passes.eq_of_settled (passes : Passes v g g')
    (settled : Settled g v.place v.entity v.relation) : g' = g := by
  cases passes with
  | free | morph => rfl
  | belongs typed target keyed =>
    obtain ⟨_, _, e, key, -, keyed', -, owner, field⟩ := settled.belongs_of_typed typed
    obtain rfl := Option.some.inj (keyed.symm.trans keyed')
    refine modifyEntity_self fun e' found => ?_
    rw [Option.some.inj (found.symm.trans owner), withKeyField_of_hasKey field]
  | has typed target keyed =>
    obtain ⟨_, t, key, target', keyed', field, inverse⟩ := settled.has_of_typed typed
    obtain rfl := Option.some.inj (keyed.symm.trans keyed')
    obtain ⟨rfl, rfl⟩ := target.unique target'
    refine modifyEntity_self fun e found => ?_
    rw [Option.some.inj (found.symm.trans target.found), completeHas, if_pos inverse,
      withKeyField_of_hasKey field]
  | pairs typed target tabled =>
    obtain ⟨_, t, pivot, target', tabled', inverse⟩ := settled.pairs_of_typed typed
    obtain rfl := Option.some.inj (tabled.symm.trans tabled')
    obtain ⟨rfl, rfl⟩ := target.unique target'
    refine modifyEntity_self fun e found => ?_
    rw [Option.some.inj (found.symm.trans target.found), completePairs, if_pos inverse]

/-- A settled relation passes its check, which leaves the graph as it is. -/
theorem checkRelation_of_settled (fresh : g.Fresh) (owned : v.Owned g)
    (settled : Settled g v.place v.entity v.relation) : checkRelation v g = .clean g := by
  obtain ⟨g', checked, passes⟩ :=
    checkRelation_of_sound owned.named (owned.trimmed fresh) fresh settled.sound
  rw [checked, passes.eq_of_settled settled]

end

end EntityGraph.Check
