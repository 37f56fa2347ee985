import EntityGraph.Proofs.Completion

/-!
Relations by convention. Of such a relation only the type and the two ends are given, and everything
else follows from the names. A check infers the way back along it from a mix of what the relation
says and what the names give; the result is the relation that the other entity could have declared
by convention. Where the keys of a many-to-many relation are given, the way back is its mirror
image, and the way back along that one is the relation again.
-/
namespace EntityGraph

/-- A draft of which nothing but the type and the two ends is given. -/
def Draft.bare (defaultLocalKey : String) (type : RelationType) (owner target : String) :
    Draft String :=
  let draft : Draft String := { defaultLocalKey := defaultLocalKey, type := some type }
  (draft.withOwner (some owner)).withTarget (some target)

/-- A many-to-many relation with the table and the keys of another one, the keys swapped. -/
structure Relation.Mirrors (back r : Relation) : Prop where
  pivotTable : back.pivotTable = r.pivotTable
  foreignKey : back.foreignKey = r.relatedKey
  relatedKey : back.relatedKey = r.foreignKey

theorem Draft.build_bare {owner target : String} (ownerNamed : owner ≠ "")
    (ownerTrimmed : Text.Trimmed owner) (targetNamed : target ≠ "")
    (targetTrimmed : Text.Trimmed target) (key : String) (type : RelationType) :
    (bare key type owner target).build =
      .ok ((bare key type owner target).fill type owner target) := by
  refine build_eq_ok.2 ⟨type, owner, target, ends_eq_ok.2 ⟨rfl, ?_, ?_, fun _ => targetNamed⟩, rfl⟩
  · simp only [bare, withOwner, withTarget, Option.map_some]
    rw [ownerTrimmed, Relation.filled?_some ownerNamed]
  · simp only [bare, withTarget, Option.map_some]
    rw [targetTrimmed, Relation.filled?_some targetNamed, Option.getD_some]

namespace Check

variable {key a b : String} {options : GraphOptions}

/-! ## Ways back -/

/-- The check of the relation `r` of entity `a` passes and puts `back` behind the relations of its
    target, unless the target has a way back already. -/
def AddsBack (key a : String) (r : Relation) (has : Entity → Bool) (back : Relation) : Prop :=
  ∀ g v place t, g.options.defaultLocalKey = key → v.entity = a → v.relation = r →
    g.Target r place t → has t = false → ∃ t', t'.relations = t.relations ++ [back] ∧
      checkRelation v g = .clean { g with store := g.store.set place t' }

private theorem clean_modifyEntity {g : Graph} {place : Nat} {t : Entity}
    (found : g.store[place]? = some t) (f : Entity → Entity) :
    Outcome.clean (g.modifyEntity place f) =
      .clean { g with store := g.store.set place (f t) } := by
  rw [Graph.modifyEntity, List.modify_eq_set_getElem?, found]
  rfl

/-- What a check adds behind a relation of one entity to others that belong to it. -/
private theorem addsBack_has {r back : Relation} {type : RelationType} {column : String}
    (named : a ≠ "") (trimmed : Text.Trimmed a) (targetTrimmed : Text.Trimmed b)
    (has : type = .hasOne ∨ type = .hasMany) (typed : r.type = some type)
    (leads : r.target = some b) (keyed : Relation.filled? r.foreignKey = some column)
    (same : ∀ options : GraphOptions, options.defaultLocalKey = key →
      belongsBack options b a r = back) :
    AddsBack key a r (leadsTo · [.belongsTo] a) back := by
  rintro g v place t shared rfl rfl target lacking
  obtain rfl : b = t.name := Option.some.inj (leads.symm.trans target.target)
  have needed : type.requiresTarget = true := by rcases has with rfl | rfl <;> rfl
  have checked : checkRelation v g = checkHas type v g place t := by
    rw [checkRelation_of_target typed needed
      (Relation.filled?_eq_some.2 ⟨target.target, target.named⟩) target.located target.found]
    rcases has with rfl | rfl <;> rfl
  refine ⟨completeHas g.options v.entity v.relation column t, ?_, ?_⟩
  · rw [completeHas, if_neg (by simpa using lacking), same _ shared]
    exact congrArg (· ++ [back]) (withKeyField_relations _ _ _ _)
  · rw [checked, checkHas_eq named trimmed target targetTrimmed keyed,
      clean_modifyEntity target.found]

/-- What a check adds behind a many-to-many relation. -/
private theorem addsBack_pairs {r back : Relation} {pivot : String} (named : a ≠ "")
    (trimmed : Text.Trimmed a) (targetTrimmed : Text.Trimmed b)
    (typed : r.type = some .belongsToMany) (leads : r.target = some b)
    (tabled : Relation.filled? r.pivotTable = some pivot)
    (same : ∀ options : GraphOptions, options.defaultLocalKey = key →
      pairsBack options b a r = back) :
    AddsBack key a r (leadsThrough · pivot a) back := by
  rintro g v place t shared rfl rfl target lacking
  obtain rfl : b = t.name := Option.some.inj (leads.symm.trans target.target)
  have checked : checkRelation v g = checkBelongsToMany v g place t :=
    checkRelation_of_target typed rfl
      (Relation.filled?_eq_some.2 ⟨target.target, target.named⟩) target.located target.found
  refine ⟨completePairs g.options v.entity v.relation pivot t, ?_, ?_⟩
  · rw [completePairs, if_neg (by simpa using lacking), same _ shared]
    rfl
  · rw [checked, checkBelongsToMany_eq named trimmed target targetTrimmed tabled,
      clean_modifyEntity target.found]

/-! ## By convention -/

private theorem getD_filled? (text : String) :
    (Relation.filled? (some text)).getD text = text := by
  by_cases empty : text = ""
  · rw [empty, Relation.filled?_empty, Option.getD_none]
  · rw [Relation.filled?_some empty, Option.getD_some]

private theorem belongsBack_bare {options : GraphOptions} (shared : options.defaultLocalKey = key)
    (named : a ≠ "") {type : RelationType} (has : type = .hasOne ∨ type = .hasMany) :
    belongsBack options b a ((Draft.bare key type a b).fill type a b) =
      { (Draft.bare key .belongsTo b a).fill .belongsTo b a with inferred := true } := by
  rcases has with rfl | rfl <;>
    simp [belongsBack, Draft.fill, Draft.bare, Draft.withOwner, Draft.withTarget, shared,
      Relation.filled?_some named, getD_filled?, Convention.foreignKey, Convention.relationName,
      Convention.morphName?, Convention.relatedKey?, RelationType.isPolymorphic,
      RelationType.isToMany, RelationType.requiresPivot]

private theorem filled?_key (name : String) :
    Relation.filled? (some (name ++ "_id")) = some (name ++ "_id") :=
  Relation.filled?_some (by simp)

private theorem pairsBack_bare {options : GraphOptions} (shared : options.defaultLocalKey = key)
    (named : a ≠ "") :
    pairsBack options b a ((Draft.bare key .belongsToMany a b).fill .belongsToMany a b) =
      { (Draft.bare key .belongsToMany b a).fill .belongsToMany b a with inferred := true } := by
  simp [pairsBack, Draft.fill, Draft.bare, Draft.withOwner, Draft.withTarget, shared,
    Relation.filled?_some named, getD_filled?, Convention.foreignKey, Convention.relationName,
    Convention.morphName?, Convention.relatedKey?, Convention.pivotTable_comm b a, filled?_key,
    RelationType.isPolymorphic, RelationType.isToMany, RelationType.requiresPivot]

/-! ## With keys -/

/-- Where its table and its keys are given, a relation is mirrored by the way back. -/
private theorem pairsBack_mirrors (options : GraphOptions) {r : Relation} {column other : String}
    (keyed : Relation.filled? r.foreignKey = some column)
    (related : Relation.filled? r.relatedKey = some other) :
    (pairsBack options b a r).Mirrors r := by
  refine ⟨rfl, ?_, ?_⟩
  · rw [pairsBack, related, (Relation.filled?_eq_some.1 related).1]
    rfl
  · rw [pairsBack, keyed, (Relation.filled?_eq_some.1 keyed).1]
    rfl

/-- Between two entities, what a check infers as the way back is what could have been declared. -/
structure InfersConvention (key a b : String) : Prop where
  belongs : ∀ type, type = .hasOne ∨ type = .hasMany → ∃ r back,
    (Draft.bare key type a b).build = .ok r ∧ (Draft.bare key .belongsTo b a).build = .ok back ∧
      AddsBack key a r (leadsTo · [.belongsTo] a) { back with inferred := true }
  pairs : ∃ r back pivot, (Draft.bare key .belongsToMany a b).build = .ok r ∧
    (Draft.bare key .belongsToMany b a).build = .ok back ∧ r.pivotTable = some pivot ∧
      AddsBack key a r (leadsThrough · pivot a) { back with inferred := true }
  /-- With a table and keys of its own, a relation is mirrored by the way back, and that one by the
      way back from there. -/
  mirrored : ∀ d : Draft String, d.type = some .belongsToMany → d.owner = some a →
    d.target = some b → ∀ pivot column other, Relation.filled? d.pivotTable = some pivot →
      Relation.filled? d.foreignKey = some column → Relation.filled? d.relatedKey = some other →
      ∃ r back again, d.build = .ok r ∧ r.pivotTable = some pivot ∧ r.foreignKey = some column ∧
        r.relatedKey = some other ∧
        AddsBack key a r (leadsThrough · pivot a) back ∧ back.Mirrors r ∧
        AddsBack key b back (leadsThrough · pivot b) again ∧ again.pivotTable = r.pivotTable ∧
        again.foreignKey = r.foreignKey ∧ again.relatedKey = r.relatedKey

/-- Entities with names of their own declare the same by convention as a check infers. -/
theorem infers_convention (aNamed : a ≠ "") (aTrimmed : Text.Trimmed a) (bNamed : b ≠ "")
    (bTrimmed : Text.Trimmed b) (key : String) : InfersConvention key a b where
  belongs := by
    intro type has
    refine ⟨_, _, Draft.build_bare aNamed aTrimmed bNamed bTrimmed key type,
      Draft.build_bare bNamed bTrimmed aNamed aTrimmed key .belongsTo, ?_⟩
    have keyed : Relation.filled? ((Draft.bare key type a b).fill type a b).foreignKey =
        some (Name.snake a ++ "_id") := by
      rcases has with rfl | rfl <;> exact filled?_key _
    exact addsBack_has aNamed aTrimmed bTrimmed has rfl (Relation.filled?_some bNamed) keyed
      fun options shared => belongsBack_bare shared aNamed has
  pairs := by
    have tabled := Relation.filled?_some (Convention.pivotTable_ne_empty a b)
    refine ⟨_, _, _, Draft.build_bare aNamed aTrimmed bNamed bTrimmed key .belongsToMany,
      Draft.build_bare bNamed bTrimmed aNamed aTrimmed key .belongsToMany, rfl, ?_⟩
    exact addsBack_pairs aNamed aTrimmed bTrimmed rfl (Relation.filled?_some bNamed) tabled
      fun options shared => pairsBack_bare shared aNamed
  mirrored := by
    intro d typed owned leads pivot column other tabled keyed related
    have ends : d.ends = .ok (.belongsToMany, a, b) :=
      Draft.ends_eq_ok.2 ⟨typed, owned ▸ Relation.filled?_some aNamed, by rw [leads]; rfl,
        fun _ => bNamed⟩
    let r := d.fill .belongsToMany a b
    have still : ∀ {s : Option String} {text : String}, Relation.filled? s = some text →
        Relation.filled? (some text) = some text := fun given =>
      Relation.filled?_some (Relation.filled?_eq_some.1 given).2
    have tabled' : Relation.filled? r.pivotTable = some pivot := by
      simp [r, Draft.fill, tabled, still tabled]
    have keyed' : Relation.filled? r.foreignKey = some column := by
      simp [r, Draft.fill, keyed, still keyed]
    have related' : Relation.filled? r.relatedKey = some other := by
      simp [r, Draft.fill, related, still related]
    -- The keys are given, so of the options only the local key counts for the way back.
    let back := pairsBack { defaultLocalKey := key } b a r
    let again := pairsBack { defaultLocalKey := key } a b back
    have mirrors : back.Mirrors r := pairsBack_mirrors _ keyed' related'
    have mirrors' : again.Mirrors back :=
      pairsBack_mirrors _ (mirrors.foreignKey ▸ related') (mirrors.relatedKey ▸ keyed')
    refine ⟨r, back, again, Draft.build_eq_ok.2 ⟨_, _, _, ends, rfl⟩,
      (Relation.filled?_eq_some.1 tabled').1, (Relation.filled?_eq_some.1 keyed').1,
      (Relation.filled?_eq_some.1 related').1, ?_, mirrors, ?_,
      mirrors'.pivotTable.trans mirrors.pivotTable, mirrors'.foreignKey.trans mirrors.relatedKey,
      mirrors'.relatedKey.trans mirrors.foreignKey⟩
    · refine addsBack_pairs aNamed aTrimmed bTrimmed rfl (Relation.filled?_some bNamed) tabled'
        fun options shared => ?_
      simp only [back, pairsBack, shared]
    · refine addsBack_pairs bNamed bTrimmed aTrimmed rfl rfl tabled'
        fun options shared => ?_
      simp only [again, pairsBack, shared]

/-- Users with roles that know nothing of them. -/
def roles : Graph :=
  ({ store := [{ name := "User" }, { name := "Role" }] } : Graph).freeze

/-- The roles get the relation to users that they could have declared. -/
theorem infers_convention_roles : "User" ≠ "" ∧ Text.Trimmed "User" ∧ "Role" ≠ "" ∧
    Text.Trimmed "Role" ∧ InfersConvention "id" "User" "Role" ∧ ∃ r back t,
      (Draft.bare "id" .belongsToMany "User" "Role").build = .ok r ∧
      (Draft.bare "id" .belongsToMany "Role" "User").build = .ok back ∧
      t.relations = [{ back with inferred := true }] ∧
      checkRelation ⟨0, "User", r, "roles"⟩ roles =
        .clean { roles with store := [{ name := "User" }, t] } := by
  have userTrimmed : Text.Trimmed "User" := by decide +kernel
  have roleTrimmed : Text.Trimmed "Role" := by decide +kernel
  have infers := infers_convention (by decide) userTrimmed (by decide) roleTrimmed "id"
  refine ⟨by decide, userTrimmed, by decide, roleTrimmed, infers, ?_⟩
  obtain ⟨r, back, pivot, built, built', -, adds⟩ := infers.pairs
  have shape := Except.ok.inj (built.symm.trans
    (Draft.build_bare (by decide) userTrimmed (by decide) roleTrimmed _ _))
  have target : roles.Target r 1 { name := "Role" } :=
    ⟨by rw [shape]; decide, by decide, by decide, rfl⟩
  obtain ⟨t, relations, checked⟩ :=
    adds roles ⟨0, "User", r, "roles"⟩ 1 { name := "Role" } rfl rfl rfl target rfl
  exact ⟨r, back, t, built, built', relations, checked⟩

end Check

end EntityGraph
