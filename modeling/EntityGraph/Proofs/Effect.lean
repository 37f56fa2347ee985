import EntityGraph.Proofs.Gather
import EntityGraph.Proofs.Run

/-!
What a run does to a single entity. Its relations gather those that the relations of the run let
lead back from it, and its fields take up the keys that they claim. Both follow from the relations
that were there before the run; those that it adds have no part in it.
-/
namespace EntityGraph.Check

/-- The relation that one of `owner` wants to lead back from the entity of a name. -/
def back? (options : GraphOptions) (entity owner : String) (r : Relation) : Option Relation :=
  match r.type with
  | some .hasOne | some .hasMany =>
    if r.target = some entity then some (belongsBack options entity owner r) else none
  | some .belongsToMany =>
    if r.target = some entity then some (pairsBack options entity owner r) else none
  | _ => none

/-- The key that a relation of `owner` claims a field for in the entity of a name, and the name of
    the entity that the field is to refer to. -/
def claim? (entity owner : String) (r : Relation) : Option (String × String) :=
  match r.type with
  | some .belongsTo =>
    if owner = entity then r.foreignKey.bind fun key => r.target.map (key, ·) else none
  | some .hasOne | some .hasMany =>
    if r.target = some entity then r.foreignKey.map (·, owner) else none
  | _ => none

/-- What a check tells relations apart by when it looks for one that leads back. -/
def way (r : Relation) : Option RelationType × Option String × Option String :=
  (r.type, r.target, if r.type = some .belongsToMany then r.pivotTable else none)

theorem back?_eq_some {options : GraphOptions} {entity owner : String} {r back : Relation} :
    back? options entity owner r = some back ↔ r.target = some entity ∧
      ((r.type = some .hasOne ∨ r.type = some .hasMany) ∧
          back = belongsBack options entity owner r ∨
        r.type = some .belongsToMany ∧ back = pairsBack options entity owner r) := by
  unfold back?
  split
  · rename_i typed
    by_cases leads : r.target = some entity <;> simp [typed, leads, eq_comm]
  · rename_i typed
    by_cases leads : r.target = some entity <;> simp [typed, leads, eq_comm]
  · rename_i typed
    by_cases leads : r.target = some entity <;> simp [typed, leads, eq_comm]
  · rename_i notOne notMany notPairs
    simp only [reduceCtorEq, false_iff]
    rintro ⟨-, ⟨typed | typed, -⟩ | ⟨typed, -⟩⟩
    · exact notOne typed
    · exact notMany typed
    · exact notPairs typed

theorem claim?_eq_some {entity owner : String} {r : Relation} {key target : String} :
    claim? entity owner r = some (key, target) ↔
      r.type = some .belongsTo ∧ owner = entity ∧ r.foreignKey = some key ∧
        r.target = some target ∨
      (r.type = some .hasOne ∨ r.type = some .hasMany) ∧ r.target = some entity ∧
        r.foreignKey = some key ∧ owner = target := by
  unfold claim?
  split
  · rename_i typed
    by_cases own : owner = entity <;> simp [typed, own, Option.bind_eq_some_iff]
  · rename_i typed
    by_cases leads : r.target = some entity <;> simp [typed, leads]
  · rename_i typed
    by_cases leads : r.target = some entity <;> simp [typed, leads]
  · rename_i notBelongs notOne notMany
    simp only [reduceCtorEq, false_iff]
    rintro (⟨typed, -⟩ | ⟨typed | typed, -⟩)
    · exact notBelongs typed
    · exact notOne typed
    · exact notMany typed

/-! ## Ways back -/

theorem way_eq_belongsTo {r : Relation} {name : String} :
    (way r == (some .belongsTo, some name, none)) =
      (r.type == some .belongsTo && r.pointsTo name) := by
  rw [Bool.eq_iff_iff]
  simp only [way, Relation.pointsTo, beq_iff_eq, Prod.mk.injEq, Bool.and_eq_true]
  constructor
  · rintro ⟨typed, leads, -⟩
    exact ⟨typed, leads⟩
  · rintro ⟨typed, leads⟩
    exact ⟨typed, leads, by simp [typed]⟩

theorem way_eq_belongsToMany {r : Relation} {pivot name : String} :
    (way r == (some .belongsToMany, some name, some pivot)) =
      (r.type == some .belongsToMany && r.pivotTable == some pivot && r.pointsTo name) := by
  rw [Bool.eq_iff_iff]
  simp only [way, Relation.pointsTo, beq_iff_eq, Prod.mk.injEq, Bool.and_eq_true]
  constructor
  · rintro ⟨typed, leads, tabled⟩
    rw [if_pos typed] at tabled
    exact ⟨⟨typed, tabled⟩, leads⟩
  · rintro ⟨⟨typed, tabled⟩, leads⟩
    exact ⟨typed, leads, by rw [if_pos typed, tabled]⟩

theorem leadsTo_belongsTo_eq_any (e : Entity) (name : String) :
    leadsTo e [.belongsTo] name = e.relations.any (way · == (some .belongsTo, some name, none)) := by
  rw [Bool.eq_iff_iff, leadsTo_iff, List.any_eq_true]
  simp only [way_eq_belongsTo, Bool.and_eq_true, Relation.pointsTo, beq_iff_eq, List.mem_singleton,
    exists_eq_left]

theorem leadsThrough_eq_any (e : Entity) (pivot name : String) :
    leadsThrough e pivot name =
      e.relations.any (way · == (some .belongsToMany, some name, some pivot)) := by
  rw [Bool.eq_iff_iff, leadsThrough_iff, List.any_eq_true]
  simp only [way_eq_belongsToMany, Bool.and_eq_true, Relation.pointsTo, beq_iff_eq, and_assoc]

/-! ## Single relations -/

theorem relations_completeHas (options : GraphOptions) (owner : String) (r : Relation)
    (key : String) (e : Entity) : (completeHas options owner r key e).relations =
      gather way e.relations [belongsBack options e.name owner r] := by
  have back : way (belongsBack options e.name owner r) = (some .belongsTo, some owner, none) := rfl
  rw [completeHas, leadsTo_belongsTo_eq_any, gather, back, gather, gather]
  split
  · rw [withKeyField_relations]
  · rw [Entity.addRelation, withKeyField_relations]

theorem fields_completeHas (options : GraphOptions) (owner : String) (r : Relation)
    (key : String) (e : Entity) : (completeHas options owner r key e).fields =
      claimField options.foreignKeyNullable (key, owner) e.fields := by
  rw [completeHas, ← withKeyField_fields]
  split <;> rfl

theorem relations_completePairs (options : GraphOptions) (owner : String) {r : Relation}
    {pivot : String} (tabled : r.pivotTable = some pivot) (e : Entity) :
    (completePairs options owner r pivot e).relations =
      gather way e.relations [pairsBack options e.name owner r] := by
  have back : way (pairsBack options e.name owner r) =
      (some .belongsToMany, some owner, some pivot) := by
    rw [← tabled]
    rfl
  rw [completePairs, leadsThrough_eq_any, gather, back, gather, gather]
  split <;> rfl

theorem fields_completePairs (options : GraphOptions) (owner : String) (r : Relation)
    (pivot : String) (e : Entity) : (completePairs options owner r pivot e).fields = e.fields := by
  rw [completePairs]
  split <;> rfl

section
variable {g g' : Graph} {i : Nat} {e e' : Entity}

private theorem place_of_name {j : Nat} {t : Entity} (fresh : g.Fresh)
    (distinct : g.entityNames.Nodup) (found : g.store[i]? = some e) (there : g.store[j]? = some t)
    (same : e.name = t.name) : i = j := by
  have here : g.entityNames[i]? = some e.name := by simp [fresh.entityNames_eq, found]
  have here' : g.entityNames[j]? = some t.name := by simp [fresh.entityNames_eq, there]
  have inside := (List.getElem?_eq_some_iff.1 here).1
  exact (List.getElem?_inj inside distinct).1 (by rw [here, here', same])

/-- What a relation that passes its check does to an entity. -/
theorem Passes.effect {v : Visit} (passes : Passes v g g') (owned : v.Owned g) (fresh : g.Fresh)
    (distinct : g.entityNames.Nodup) (found : g.store[i]? = some e)
    (found' : g'.store[i]? = some e') :
    e'.relations = gather way e.relations (back? g.options e.name v.entity v.relation).toList ∧
      e'.fields = claimFields g.options.foreignKeyNullable e.fields
        (claim? e.name v.entity v.relation).toList := by
  cases passes with
  | free typed =>
    obtain rfl : e' = e := Option.some.inj (found'.symm.trans found)
    simp [back?, claim?, typed, gather, claimFields]
  | @morph type place t typed polymorphic =>
    obtain rfl : e' = e := Option.some.inj (found'.symm.trans found)
    cases type with
    | morphOne | morphMany | morphTo | morphToMany | morphedByMany =>
      simp [back?, claim?, typed, gather, claimFields]
    | _ => cases polymorphic
  | @belongs place t key typed target keyed =>
    obtain ⟨owner, there, named, -⟩ := owned.owner
    have given := (Relation.filled?_eq_some.1 keyed).1
    by_cases here : v.place = i
    · subst here
      obtain rfl : owner = e := Option.some.inj (there.symm.trans found)
      obtain rfl : _ = e' := Option.some.inj ((getElem?_modifyEntity found _).symm.trans found')
      rw [withKeyField_relations, withKeyField_fields]
      simp [back?, claim?, typed, named, given, target.target, gather, claimFields]
    · rw [getElem?_modifyEntity_ne here] at found'
      obtain rfl : e' = e := Option.some.inj (found'.symm.trans found)
      have apart : v.entity ≠ e'.name := fun same =>
        here (place_of_name fresh distinct there found (named.trans same))
      simp [back?, claim?, typed, apart, gather, claimFields]
  | @has place t key typed target keyed =>
    have given := (Relation.filled?_eq_some.1 keyed).1
    by_cases here : place = i
    · subst here
      obtain rfl : t = e := Option.some.inj (target.found.symm.trans found)
      obtain rfl : _ = e' := Option.some.inj ((getElem?_modifyEntity found _).symm.trans found')
      rw [relations_completeHas, fields_completeHas]
      rcases typed with typed | typed <;>
        simp [back?, claim?, typed, given, target.target, claimFields]
    · rw [getElem?_modifyEntity_ne here] at found'
      obtain rfl : e' = e := Option.some.inj (found'.symm.trans found)
      have apart : t.name ≠ e'.name := fun same =>
        here (place_of_name fresh distinct target.found found same)
      rcases typed with typed | typed <;>
        simp [back?, claim?, typed, target.target, apart, gather, claimFields]
  | @pairs place t pivot typed target tabled =>
    have given := (Relation.filled?_eq_some.1 tabled).1
    by_cases here : place = i
    · subst here
      obtain rfl : t = e := Option.some.inj (target.found.symm.trans found)
      obtain rfl : _ = e' := Option.some.inj ((getElem?_modifyEntity found _).symm.trans found')
      rw [relations_completePairs _ _ given, fields_completePairs]
      simp [back?, claim?, typed, target.target, claimFields]
    · rw [getElem?_modifyEntity_ne here] at found'
      obtain rfl : e' = e := Option.some.inj (found'.symm.trans found)
      have apart : t.name ≠ e'.name := fun same =>
        here (place_of_name fresh distinct target.found found same)
      simp [back?, claim?, typed, target.target, apart, gather, claimFields]

/-! ## Runs -/

private theorem filterMap_singleton {α β : Type} (f : α → Option β) (a : α) :
    [a].filterMap f = (f a).toList := by
  cases same : f a <;> simp [same]

/-- What a run does to an entity. -/
theorem Run.effect {vs : List Visit} (run : Run g vs g') (fresh : g.Fresh)
    (distinct : g.entityNames.Nodup) (found : g.store[i]? = some e)
    (found' : g'.store[i]? = some e') :
    e'.relations = gather way e.relations
        (vs.filterMap fun v => back? g.options e.name v.entity v.relation) ∧
      e'.fields = claimFields g.options.foreignKeyNullable e.fields
        (vs.filterMap fun v => claim? e.name v.entity v.relation) := by
  induction run generalizing e' with
  | start =>
    obtain rfl : e' = e := Option.some.inj (found'.symm.trans found)
    exact ⟨rfl, rfl⟩
  | @step vs v g1 g2 before owned passes ih =>
    obtain ⟨e1, found1, grows⟩ := before.grows.entity found
    obtain ⟨relations, fields⟩ := ih found1
    obtain ⟨relations', fields'⟩ := passes.effect (owned.grow before.grows)
      (fresh.grow before.grows) (before.grows.entityNames ▸ distinct) found1 found'
    rw [relations, grows.name, before.grows.options] at relations'
    rw [fields, grows.name, before.grows.options] at fields'
    rw [relations', fields', List.filterMap_append, List.filterMap_append, filterMap_singleton,
      filterMap_singleton, gather_append, claimFields_append]
    exact ⟨rfl, rfl⟩

private theorem filterMap_visitsFrom {α : Type} (f : String → Relation → Option α) (place : Nat)
    (entity : String) (position : Nat) (rs : List Relation) :
    (visitsFrom place entity position rs).filterMap (fun v => f v.entity v.relation) =
      rs.filterMap (f entity) := by
  induction rs generalizing position with
  | nil => rfl
  | cons r rest ih => rw [visitsFrom, List.filterMap_cons, List.filterMap_cons, ih]

/-- What the visits of all relations come to, entity by entity. -/
theorem filterMap_visitsBefore {α : Type} (f : String → Relation → Option α) (place : Nat) :
    (visitsBefore g place).filterMap (fun v => f v.entity v.relation) =
      (g.store.take place).flatMap fun owner => owner.relations.filterMap (f owner.name) := by
  induction place with
  | zero => rfl
  | succ place ih =>
    rw [visitsBefore, List.filterMap_append, ih, List.take_add_one, List.flatMap_append, visitsAt]
    congr 1
    cases g.store[place]? with
    | none => rfl
    | some owner => simp [filterMap_visitsFrom]

end

end EntityGraph.Check
