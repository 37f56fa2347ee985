import EntityGraph.Proofs.Lookup

/-!
One step of a check: a single relation. Whether a relation is at fault depends on what it says and
on the relations of its target alone, and a fault leaves the graph as it is. Otherwise one of four
things happens to one entity, which `Passes` lists; everything about whole checks follows from them.
-/
namespace EntityGraph.Check

/-! ## Faults -/

/-- The fault of a relation of the given type whose target is known. -/
def kindFault? (type : RelationType) (v : Visit) (target : Entity) : Option CheckFault :=
  match type with
  | .belongsTo =>
    match Relation.filled? v.relation.foreignKey with
    | none => some (.keyMissing v.entity v.label .belongsTo)
    | some _ =>
      if leadsTo target [.hasOne, .hasMany] v.entity then none
      else some (.inverseMissing v.entity v.label target.name)
  | .hasOne | .hasMany =>
    match Relation.filled? v.relation.foreignKey with
    | none => some (.keyMissing v.entity v.label type)
    | some _ => none
  | .belongsToMany =>
    match Relation.filled? v.relation.pivotTable with
    | none => some (.pivotMissing v.entity v.label)
    | some _ => none
  | _ => none

/-- The fault of a relation. -/
def relationFault? (g : Graph) (v : Visit) : Option CheckFault :=
  match v.relation.type with
  | none => some (.relationUntyped v.entity v.label)
  | some type =>
    if type.requiresTarget then
      match Relation.filled? v.relation.target with
      | none => some (.targetUnset v.entity v.label type)
      | some name =>
        match g.getEntity? name with
        | none => some (.targetUnknown v.entity v.label name)
        | some target => kindFault? type v target
    else none

/-! ## Completion -/

/-- The target of a relation by which `owner` has it, with its foreign key and a way back. -/
def completeHas (options : GraphOptions) (owner : String) (r : Relation) (key : String)
    (t : Entity) : Entity :=
  let keyed := withKeyField options.foreignKeyNullable key owner t
  if leadsTo t [.belongsTo] owner then keyed
  else keyed.addRelation (belongsBack options t.name owner r)

/-- The target of a many-to-many relation of `owner`, with a way back through the same table. -/
def completePairs (options : GraphOptions) (owner : String) (r : Relation) (pivot : String)
    (t : Entity) : Entity :=
  if leadsThrough t pivot owner then t else t.addRelation (pairsBack options t.name owner r)

/-- What becomes of a graph when a relation passes its check. -/
inductive Passes (v : Visit) (g : Graph) : Graph → Prop
  | free (typed : v.relation.type = some .morphTo) : Passes v g g
  | morph {type : RelationType} {place : Nat} {t : Entity} (typed : v.relation.type = some type)
      (polymorphic : type.isPolymorphic = true) (target : g.Target v.relation place t) :
      Passes v g g
  | belongs {place : Nat} {t : Entity} {key : String} (typed : v.relation.type = some .belongsTo)
      (target : g.Target v.relation place t)
      (keyed : Relation.filled? v.relation.foreignKey = some key)
      (inverse : leadsTo t [.hasOne, .hasMany] v.entity = true) :
      Passes v g (g.modifyEntity v.place (withKeyField g.options.foreignKeyNullable key t.name))
  | has {place : Nat} {t : Entity} {key : String}
      (typed : v.relation.type = some .hasOne ∨ v.relation.type = some .hasMany)
      (target : g.Target v.relation place t)
      (keyed : Relation.filled? v.relation.foreignKey = some key) :
      Passes v g (g.modifyEntity place (completeHas g.options v.entity v.relation key))
  | pairs {place : Nat} {t : Entity} {pivot : String}
      (typed : v.relation.type = some .belongsToMany) (target : g.Target v.relation place t)
      (tabled : Relation.filled? v.relation.pivotTable = some pivot) :
      Passes v g (g.modifyEntity place (completePairs g.options v.entity v.relation pivot))

private theorem modifyEntity_modifyEntity (g : Graph) (place : Nat) (f f' : Entity → Entity) :
    (g.modifyEntity place f).modifyEntity place f' = g.modifyEntity place (f' ∘ f) := by
  simp only [Graph.modifyEntity, List.modify_modify_eq]

/-- Two changes of the entity at a place are the same if they agree on it. -/
theorem modifyEntity_congr {g : Graph} {place : Nat} {f f' : Entity → Entity}
    (agree : ∀ e, g.store[place]? = some e → f e = f' e) :
    g.modifyEntity place f = g.modifyEntity place f' := by
  have same : g.store.modify place f = g.store.modify place f' := by
    refine List.ext_getElem? fun i => ?_
    rw [List.getElem?_modify, List.getElem?_modify]
    by_cases here : place = i
    · subst here
      cases found : g.store[place]? with
      | none => rfl
      | some e => simp [agree e found]
    · simp [here]
  simp only [Graph.modifyEntity, same]

/-- A change that changes nothing. -/
theorem modifyEntity_self {g : Graph} {place : Nat} {f : Entity → Entity}
    (unchanged : ∀ e, g.store[place]? = some e → f e = e) : g.modifyEntity place f = g := by
  have same : g.modifyEntity place f = g.modifyEntity place id := modifyEntity_congr unchanged
  rw [same, Graph.modifyEntity, List.modify_id]

section
variable {v : Visit} {g : Graph}

private theorem checkWithTarget_of_fault {type : RelationType} {target : Entity} {f : CheckFault}
    (place : Nat) (fault : kindFault? type v target = some f) :
    checkWithTarget type v g place target = .failed g f := by
  cases type with
  | belongsTo =>
    cases keyed : Relation.filled? v.relation.foreignKey with
    | none =>
      simp only [kindFault?, keyed] at fault
      cases fault
      simp only [checkWithTarget, checkBelongsTo, keyed]
    | some key =>
      simp only [kindFault?, keyed] at fault
      split at fault
      · cases fault
      · rename_i noInverse
        cases fault
        simp only [checkWithTarget, checkBelongsTo, keyed, noInverse, Bool.false_eq_true, if_false]
  | hasOne | hasMany =>
    cases keyed : Relation.filled? v.relation.foreignKey with
    | none =>
      simp only [kindFault?, keyed] at fault
      cases fault
      simp only [checkWithTarget, checkHas, keyed]
    | some key =>
      simp only [kindFault?, keyed] at fault
      cases fault
  | belongsToMany =>
    cases tabled : Relation.filled? v.relation.pivotTable with
    | none =>
      simp only [kindFault?, tabled] at fault
      cases fault
      simp only [checkWithTarget, checkBelongsToMany, tabled]
    | some pivot =>
      simp only [kindFault?, tabled] at fault
      cases fault
  | _ => cases fault

private theorem getEntity?_eq_some {name : String} {t : Entity} :
    g.getEntity? name = some t ↔
      ∃ place, g.locate? name = some place ∧ g.store[place]? = some t := by
  rw [Graph.getEntity?, Option.bind_eq_some_iff]

theorem checkRelation_of_target {type : RelationType} {name : String} {place : Nat}
    {t : Entity} (typed : v.relation.type = some type) (needed : type.requiresTarget = true)
    (target : Relation.filled? v.relation.target = some name)
    (located : g.locate? name = some place) (found : g.store[place]? = some t) :
    checkRelation v g = checkWithTarget type v g place t := by
  simp only [checkRelation, typed, needed, if_true, target, located, found]

/-- A relation at fault ends the check where it stands. -/
theorem checkRelation_of_fault {f : CheckFault} (fault : relationFault? g v = some f) :
    checkRelation v g = .failed g f := by
  unfold relationFault? at fault
  split at fault
  · rename_i untyped
    cases fault
    simp only [checkRelation, untyped]
  · rename_i type typed
    split at fault
    · rename_i needed
      split at fault
      · rename_i unset
        cases fault
        simp only [checkRelation, typed, needed, if_true, unset]
      · rename_i name given
        split at fault
        · rename_i unknown
          cases fault
          simp only [checkRelation, typed, needed, if_true, given]
          cases located : g.locate? name with
          | none => rfl
          | some place =>
            rw [Graph.getEntity?, located, Option.bind_some] at unknown
            simp only [unknown]
        · rename_i t known
          obtain ⟨place, located, found⟩ := getEntity?_eq_some.1 known
          rw [checkRelation_of_target typed needed given located found]
          exact checkWithTarget_of_fault place fault
    · cases fault

section
variable (named : v.entity ≠ "") (trimmed : Text.Trimmed v.entity)
include named trimmed

section
variable {place : Nat} {t : Entity} (target : g.Target v.relation place t)
  (owner : Text.Trimmed t.name)
include target owner

private theorem addInverse_belongsBack {key : String}
    (keyed : Relation.filled? v.relation.foreignKey = some key) (g' : Graph) :
    addInverse g' place (inverseDraft g.options .belongsTo t.name v.entity (some key) none
      v.relation.localKey none) =
      .clean (g'.modifyEntity place (·.addRelation (belongsBack g.options t.name v.entity
        v.relation))) := by
  rw [addInverse, build_belongsBack target.named owner named trimmed keyed]

private theorem addInverse_pairsBack {pivot : String}
    (tabled : Relation.filled? v.relation.pivotTable = some pivot) :
    addInverse g place (inverseDraft g.options .belongsToMany t.name v.entity
      v.relation.relatedKey v.relation.foreignKey v.relation.localKey (some pivot)) =
      .clean (g.modifyEntity place (·.addRelation (pairsBack g.options t.name v.entity
        v.relation))) := by
  rw [addInverse, build_pairsBack target.named owner named trimmed tabled]

theorem checkHas_eq {type : RelationType} {key : String}
    (keyed : Relation.filled? v.relation.foreignKey = some key) :
    checkHas type v g place t =
      .clean (g.modifyEntity place (completeHas g.options v.entity v.relation key)) := by
  have here : ∀ e, g.store[place]? = some e → e = t := fun e found =>
    Option.some.inj (found.symm.trans target.found)
  simp only [checkHas, keyed]
  split
  · rename_i back
    congr 1
    refine modifyEntity_congr fun e found => ?_
    rw [completeHas, here e found, if_pos back]
  · rename_i noBack
    have options : (g.modifyEntity place
        (withKeyField g.options.foreignKeyNullable key v.entity)).options = g.options := rfl
    rw [options, addInverse_belongsBack named trimmed target owner keyed,
      modifyEntity_modifyEntity]
    congr 1
    refine modifyEntity_congr fun e found => ?_
    rw [completeHas, here e found, if_neg noBack, Function.comp_apply]

theorem checkBelongsToMany_eq {pivot : String}
    (tabled : Relation.filled? v.relation.pivotTable = some pivot) :
    checkBelongsToMany v g place t =
      .clean (g.modifyEntity place (completePairs g.options v.entity v.relation pivot)) := by
  have here : ∀ e, g.store[place]? = some e → e = t := fun e found =>
    Option.some.inj (found.symm.trans target.found)
  simp only [checkBelongsToMany, tabled]
  split
  · rename_i back
    rw [modifyEntity_self fun e found => by rw [completePairs, here e found, if_pos back]]
  · rename_i noBack
    rw [addInverse_pairsBack named trimmed target owner tabled]
    congr 1
    refine modifyEntity_congr fun e found => ?_
    rw [completePairs, here e found, if_neg noBack]

end

variable (fresh : g.Fresh)
include fresh

private theorem checkWithTarget_of_sound {type : RelationType} {place : Nat} {t : Entity}
    (typed : v.relation.type = some type) (needed : type.requiresTarget = true)
    (target : g.Target v.relation place t) (sound : kindFault? type v t = none) :
    ∃ g', checkWithTarget type v g place t = .clean g' ∧ Passes v g g' := by
  have owner := fresh.trimmed t (List.mem_of_getElem? target.found)
  cases type with
  | belongsTo =>
    simp only [kindFault?] at sound
    split at sound
    · cases sound
    · rename_i key keyed
      split at sound
      · rename_i inverse
        refine ⟨_, ?_, .belongs typed target keyed inverse⟩
        simp only [checkWithTarget, checkBelongsTo, keyed, inverse, if_true]
      · cases sound
  | hasOne | hasMany =>
    simp only [kindFault?] at sound
    split at sound
    · cases sound
    · rename_i key keyed
      refine ⟨_, checkHas_eq named trimmed target owner keyed, .has ?_ target keyed⟩
      simp [typed]
  | belongsToMany =>
    simp only [kindFault?] at sound
    split at sound
    · cases sound
    · rename_i pivot tabled
      exact ⟨_, checkBelongsToMany_eq named trimmed target owner tabled,
        .pairs typed target tabled⟩
  | morphTo => exact absurd needed (by decide)
  | morphOne | morphMany | morphToMany | morphedByMany =>
    exact ⟨g, rfl, .morph typed rfl target⟩

/-- A relation without a fault passes. -/
theorem checkRelation_of_sound (sound : relationFault? g v = none) :
    ∃ g', checkRelation v g = .clean g' ∧ Passes v g g' := by
  unfold relationFault? at sound
  split at sound
  · cases sound
  · rename_i type typed
    split at sound
    · rename_i needed
      split at sound
      · cases sound
      · rename_i name given
        split at sound
        · cases sound
        · rename_i t known
          obtain ⟨place, located, found⟩ := getEntity?_eq_some.1 known
          rw [checkRelation_of_target typed needed given located found]
          obtain ⟨filled, e, here, same, -⟩ := fresh.locate?_eq_some.1 located
          obtain rfl : e = t := Option.some.inj (here.symm.trans found)
          have target : g.Target v.relation place e :=
            ⟨by rw [same]; exact (Relation.filled?_eq_some.1 given).1, same ▸ filled,
              same ▸ located, found⟩
          exact checkWithTarget_of_sound named trimmed fresh typed needed target sound
    · rename_i unneeded
      have free : type = .morphTo := by cases type <;> first | rfl | exact absurd rfl unneeded
      refine ⟨g, ?_, .free (free ▸ typed)⟩
      simp only [checkRelation, typed, free, RelationType.requiresTarget, Bool.false_eq_true,
        if_false]

end

end

end EntityGraph.Check
