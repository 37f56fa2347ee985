import EntityGraph.Proofs.Step

/-!
What completion does to a single entity: which foreign keys have fields, which relations lead where,
and what of this remains when the entity grows.
-/
namespace EntityGraph

/-- An entity has a field for a foreign key, and the field says what it refers to. -/
def Entity.HasKey (e : Entity) (key : String) : Prop :=
  ∃ f, e.getField? key = some f ∧ f.belongsTo ≠ none

namespace Check

/-! ## Fields for foreign keys -/

@[simp] theorem withKeyField_name (nullable : Bool) (key target : String) (e : Entity) :
    (withKeyField nullable key target e).name = e.name := by
  rw [withKeyField]; split <;> rfl

@[simp] theorem withKeyField_relations (nullable : Bool) (key target : String) (e : Entity) :
    (withKeyField nullable key target e).relations = e.relations := by
  rw [withKeyField]; split <;> rfl

private theorem find?_referTo {key : String} (target : String) {fields : List Field}
    (present : fields.any (·.name == key) = true) :
    ∃ f, (referTo key target fields).find? (·.name == key) = some f ∧ f.belongsTo ≠ none := by
  induction fields with
  | nil => simp at present
  | cons f rest ih =>
    rw [referTo]
    by_cases same : f.name = key
    · rw [if_pos same]
      split
      · exact ⟨{ f with belongsTo := some target },
          List.find?_cons_of_pos (by simpa using same), Option.some_ne_none _⟩
      · rename_i refers
        exact ⟨f, List.find?_cons_of_pos (by simpa using same), by simpa using refers⟩
    · rw [if_neg same, List.find?_cons_of_neg (by simpa using same)]
      exact ih (by simpa [same] using present)

theorem hasKey_withKeyField (nullable : Bool) (key target : String) (e : Entity) :
    (withKeyField nullable key target e).HasKey key := by
  rw [withKeyField]
  split
  · rename_i present
    exact find?_referTo target present
  · rename_i absent
    refine ⟨keyField nullable key target, ?_, Option.some_ne_none _⟩
    have none : e.fields.find? (·.name == key) = none := by
      simpa [Entity.hasField] using absent
    simp [Entity.getField?, Entity.addField, List.find?_append, none, keyField]

private theorem referTo_self {key : String} (target : String) {fields : List Field} {f : Field}
    (found : fields.find? (·.name == key) = some f) (refers : f.belongsTo ≠ none) :
    referTo key target fields = fields := by
  induction fields with
  | nil => rfl
  | cons first rest ih =>
    rw [referTo]
    by_cases same : first.name = key
    · rw [List.find?_cons_of_pos (by simpa using same)] at found
      cases found
      rw [if_pos same, if_neg (by simpa using refers)]
    · rw [List.find?_cons_of_neg (by simpa using same)] at found
      rw [if_neg same, ih found]

/-- A foreign key that has its field gets no other. -/
theorem withKeyField_of_hasKey {key : String} {e : Entity} (keyed : e.HasKey key) (nullable : Bool)
    (target : String) : withKeyField nullable key target e = e := by
  obtain ⟨f, found, refers⟩ := keyed
  have first : e.fields.find? (fun f => f.name == key) = some f := found
  have present : e.hasField key = true :=
    List.any_eq_true.2 ⟨f, List.mem_of_find?_eq_some first, by simpa using List.find?_some first⟩
  rw [withKeyField, if_pos present, referTo_self target found refers]

/-! ## Relations that lead to an entity -/

theorem leadsTo_iff {e : Entity} {types : List RelationType} {name : String} :
    leadsTo e types name = true ↔
      ∃ r ∈ e.relations, (∃ type ∈ types, r.type = some type) ∧ r.target = some name := by
  simp only [leadsTo, Entity.relationsOfType, List.any_filter, List.any_eq_true, Bool.and_eq_true,
    Option.any_eq_true, Relation.pointsTo, beq_iff_eq]
  constructor
  · rintro ⟨r, member, ⟨type, typed, among⟩, leads⟩
    exact ⟨r, member, ⟨type, by simpa using among, typed⟩, leads⟩
  · rintro ⟨r, member, ⟨type, among, typed⟩, leads⟩
    exact ⟨r, member, ⟨type, typed, by simpa using among⟩, leads⟩

theorem leadsThrough_iff {e : Entity} {pivot name : String} :
    leadsThrough e pivot name = true ↔
      ∃ r ∈ e.relations, r.type = some .belongsToMany ∧ r.pivotTable = some pivot ∧
        r.target = some name := by
  simp only [leadsThrough, Entity.relationsOfType, List.any_filter, List.any_eq_true,
    Bool.and_eq_true, Option.any_eq_true, Relation.pointsTo, beq_iff_eq, List.contains_cons,
    List.contains_nil, Bool.or_false]
  constructor
  · rintro ⟨r, member, ⟨type, typed, rfl⟩, tabled, leads⟩
    exact ⟨r, member, typed, tabled, leads⟩
  · rintro ⟨r, member, typed, tabled, leads⟩
    exact ⟨r, member, ⟨_, typed, rfl⟩, tabled, leads⟩

/-! ## Growth -/

variable {names : List String} {e e' : Entity}

theorem mem_relations_of_grows (grown : e.Grows names e') {r : Relation}
    (member : r ∈ e.relations) : r ∈ e'.relations := by
  obtain ⟨added, same, -⟩ := grown.relations
  rw [same]
  exact List.mem_append_left _ member

theorem leadsTo_of_grows (grown : e.Grows names e') {types : List RelationType} {name : String}
    (leads : leadsTo e types name = true) : leadsTo e' types name = true := by
  obtain ⟨r, member, kind, target⟩ := leadsTo_iff.1 leads
  exact leadsTo_iff.2 ⟨r, mem_relations_of_grows grown member, kind, target⟩

theorem leadsThrough_of_grows (grown : e.Grows names e') {pivot name : String}
    (leads : leadsThrough e pivot name = true) : leadsThrough e' pivot name = true := by
  obtain ⟨r, member, kind, target⟩ := leadsThrough_iff.1 leads
  exact leadsThrough_iff.2 ⟨r, mem_relations_of_grows grown member, kind, target⟩

/-- Relations by which an entity has others are never added. -/
theorem leadsTo_has_of_grows (grown : e.Grows names e') (name : String) :
    leadsTo e' [.hasOne, .hasMany] name = leadsTo e [.hasOne, .hasMany] name := by
  refine Bool.eq_iff_iff.2 ⟨fun leads => ?_, leadsTo_of_grows grown⟩
  obtain ⟨r, member, ⟨type, among, typed⟩, target⟩ := leadsTo_iff.1 leads
  obtain ⟨added, same, adds⟩ := grown.relations
  rw [same] at member
  rcases List.mem_append.1 member with old | new
  · exact leadsTo_iff.2 ⟨r, old, ⟨type, among, typed⟩, target⟩
  · have kind := (adds r new).typed
    rw [typed] at kind
    rcases kind with same | same <;> cases same <;> simp at among

theorem hasKey_of_grows (grown : e.Grows names e') {key : String} (keyed : e.HasKey key) :
    e'.HasKey key := by
  obtain ⟨f, found, refers⟩ := keyed
  obtain ⟨kept, added, same, keeps, -⟩ := grown.fields
  have stays : ∀ {fields kept : List Field}, List.Forall₂ (Field.Grows names) fields kept →
      fields.find? (·.name == key) = some f → kept.find? (·.name == key) = some f := by
    intro fields kept related
    induction related with
    | nil => exact id
    | @cons first first' _ _ head _ ih =>
      intro found
      by_cases here : first.name = key
      · rw [List.find?_cons_of_pos (by simpa using here)] at found
        cases found
        rw [head.refers refers, List.find?_cons_of_pos (by simpa using here)]
      · rw [List.find?_cons_of_neg (by simpa using here)] at found
        rw [List.find?_cons_of_neg (by simpa [head.name] using here), ih found]
  refine ⟨f, ?_, refers⟩
  rw [Entity.getField?, same, List.find?_append, stays keeps found]
  rfl

/-! ## Targets of relations -/

variable (options : GraphOptions) (owner : String) (r : Relation)

theorem grows_completeHas {key : String} (keyed : key ≠ "") (known : owner ∈ names) (e : Entity) :
    e.Grows names (completeHas options owner r key e) := by
  have first := e.grows_withKeyField keyed known options.foreignKeyNullable
  rw [completeHas]
  split
  · exact first
  · exact first.trans (Entity.grows_addRelation names _ ⟨rfl, .inl rfl⟩)

theorem hasKey_completeHas (key : String) (e : Entity) :
    (completeHas options owner r key e).HasKey key := by
  rw [completeHas]
  split <;> exact hasKey_withKeyField options.foreignKeyNullable key owner e

theorem leadsTo_completeHas (key : String) (e : Entity) :
    leadsTo (completeHas options owner r key e) [.belongsTo] owner = true := by
  rw [completeHas]
  split
  · rename_i back
    obtain ⟨r', member, kind⟩ := leadsTo_iff.1 back
    exact leadsTo_iff.2 ⟨r', by rw [withKeyField_relations]; exact member, kind⟩
  · refine leadsTo_iff.2 ⟨belongsBack options e.name owner r, ?_, ⟨_, by simp, rfl⟩, rfl⟩
    simp [Entity.addRelation]

theorem grows_completePairs (pivot : String) (e : Entity) :
    e.Grows names (completePairs options owner r pivot e) := by
  rw [completePairs]
  split
  · exact .refl names e
  · exact Entity.grows_addRelation names e ⟨rfl, .inr rfl⟩

theorem leadsThrough_completePairs {pivot : String} (tabled : r.pivotTable = some pivot)
    (e : Entity) : leadsThrough (completePairs options owner r pivot e) pivot owner = true := by
  rw [completePairs]
  split
  · assumption
  · refine leadsThrough_iff.2 ⟨pairsBack options e.name owner r, ?_, rfl, tabled, rfl⟩
    simp [Entity.addRelation]

end Check

end EntityGraph
