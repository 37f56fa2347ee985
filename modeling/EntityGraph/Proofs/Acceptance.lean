import EntityGraph.Proofs.Run

/-!
Which graphs pass a check. What a check adds lets it accept no more and no less, except that an
entity without fields is accepted if one before it has it, and so has given it a key. The criterion
therefore speaks of the graph as it was before the check.
-/
namespace EntityGraph

/-- An entity has the one of a name, or some of them. -/
def Entity.Has (e : Entity) (name : String) : Prop :=
  ∃ r ∈ e.relations, (r.type = some .hasOne ∨ r.type = some .hasMany) ∧ r.target = some name

/-- What a graph has to say for a relation of an entity to pass its check. -/
structure Graph.AcceptsRelation (g : Graph) (entity : String) (r : Relation) : Prop where
  typed : r.type ≠ none
  target : r.type ≠ some .morphTo → ∃ t ∈ g.entities, t.name ≠ "" ∧ r.target = some t.name
  belongs : r.type = some .belongsTo → (∃ key, r.foreignKey = some key ∧ key ≠ "") ∧
    ∃ t, g.entities.find? (fun t => r.target == some t.name) = some t ∧ t.Has entity
  has : r.type = some .hasOne ∨ r.type = some .hasMany →
    ∃ key, r.foreignKey = some key ∧ key ≠ ""
  pairs : r.type = some .belongsToMany → ∃ pivot, r.pivotTable = some pivot ∧ pivot ≠ ""

/-- What a graph has to say for the entity at a place to pass its check. -/
structure Graph.Accepts (g : Graph) (place : Nat) (e : Entity) : Prop where
  named : e.name ≠ ""
  unseen : ∀ earlier ∈ g.entities.take place, e.name ≠ earlier.name
  fields : e.fields ≠ [] ∨ ∃ earlier ∈ g.entities.take place, earlier.Has e.name
  complete : ∀ f ∈ e.fields, f.name ≠ "" ∧ f.type ≠ none
  relations : ∀ r ∈ e.relations, g.AcceptsRelation e.name r

/-- A fault is about the entity at a place, which it names unless there is no name. -/
def CheckFault.Concerns (f : CheckFault) (place : Nat) (e : Entity) : Prop :=
  e.name = "" ∧ f = .entityUnnamed (place + 1) ∨
    e.name ≠ "" ∧ (Failure.checkContext f).entity = some e.name

namespace Check

variable {g g' : Graph}

theorem leadsTo_has_iff {e : Entity} {name : String} :
    leadsTo e [.hasOne, .hasMany] name = true ↔ e.Has name := by
  rw [leadsTo_iff]
  constructor
  · rintro ⟨r, member, ⟨type, among, typed⟩, leads⟩
    exact ⟨r, member, by simpa [typed] using among, leads⟩
  · rintro ⟨r, member, typed, leads⟩
    rcases typed with typed | typed <;> exact ⟨r, member, ⟨_, by simp, typed⟩, leads⟩

/-! ## Relations -/

private theorem filled?_ne_none {s : Option String} :
    Relation.filled? s ≠ none ↔ ∃ text, s = some text ∧ text ≠ "" := by
  simp only [Option.ne_none_iff_exists', Relation.filled?_eq_some]

private theorem kindFault?_eq_none {type : RelationType} {v : Visit} {t : Entity} :
    kindFault? type v t = none ↔
      (type = .belongsTo → Relation.filled? v.relation.foreignKey ≠ none ∧ t.Has v.entity) ∧
      (type = .hasOne ∨ type = .hasMany → Relation.filled? v.relation.foreignKey ≠ none) ∧
      (type = .belongsToMany → Relation.filled? v.relation.pivotTable ≠ none) := by
  cases type with
  | belongsTo =>
    cases keyed : Relation.filled? v.relation.foreignKey with
    | none => simp [kindFault?, keyed]
    | some key =>
      rw [← leadsTo_has_iff]
      cases leads : leadsTo t [.hasOne, .hasMany] v.entity <;> simp [kindFault?, keyed, leads]
  | hasOne | hasMany =>
    cases keyed : Relation.filled? v.relation.foreignKey <;> simp [kindFault?, keyed]
  | belongsToMany =>
    cases tabled : Relation.filled? v.relation.pivotTable <;> simp [kindFault?, tabled]
  | morphOne | morphMany | morphTo | morphToMany | morphedByMany => simp [kindFault?]

/-- A relation is not at fault exactly if it is acceptable. -/
theorem relationFault?_eq_none (fresh : g.Fresh) {v : Visit} :
    relationFault? g v = none ↔ g.AcceptsRelation v.entity v.relation := by
  cases typed : v.relation.type with
  | none =>
    simp only [relationFault?, typed, reduceCtorEq, false_iff]
    exact fun accepted => accepted.typed typed
  | some type =>
    by_cases free : type = .morphTo
    · simp only [relationFault?, typed, free, RelationType.requiresTarget, Bool.false_eq_true,
        if_false, true_iff]
      subst free
      exact ⟨by simp [typed], by simp [typed], by simp [typed], by simp [typed], by simp [typed]⟩
    · have needed : type.requiresTarget = true := by
        cases type <;> first | rfl | exact absurd rfl free
      simp only [relationFault?, typed, needed, if_true]
      cases given : Relation.filled? v.relation.target with
      | none =>
        simp only [reduceCtorEq, false_iff]
        intro accepted
        obtain ⟨t, -, named, leads⟩ := accepted.target (by simpa [typed] using free)
        exact filled?_ne_none.2 ⟨_, leads, named⟩ given
      | some name =>
        obtain ⟨leads, filled⟩ := Relation.filled?_eq_some.1 given
        have first : g.entities.find? (fun t => v.relation.target == some t.name) =
            g.getEntity? name := by
          rw [fresh.getEntity?_eq filled, leads]
          congr 1
          funext t
          simp [eq_comm]
        simp only
        cases known : g.getEntity? name with
        | none =>
          rw [known] at first
          simp only [reduceCtorEq, false_iff]
          intro accepted
          obtain ⟨t, member, -, same⟩ := accepted.target (by simpa [typed] using free)
          exact List.find?_eq_none.1 first t member (by simpa using same)
        | some t =>
          rw [known] at first
          have same : v.relation.target = some t.name := by simpa using List.find?_some first
          have named : t.name ≠ "" := by
            rw [Option.some.inj (same.symm.trans leads)]
            exact filled
          simp only [kindFault?_eq_none, filled?_ne_none]
          constructor
          · rintro ⟨belongs, has, pairs⟩
            refine ⟨by simp [typed], fun _ => ⟨t, List.mem_of_find?_eq_some first, named, same⟩,
              ?_, ?_, ?_⟩
            · intro kind
              obtain ⟨keyed, back⟩ := belongs (Option.some.inj (typed.symm.trans kind))
              exact ⟨keyed, t, first, back⟩
            · exact fun kind => has (by simpa [typed] using kind)
            · exact fun kind => pairs (by simpa [typed] using kind)
          · intro accepted
            refine ⟨?_, ?_, ?_⟩
            · rintro rfl
              obtain ⟨keyed, other, found, back⟩ := accepted.belongs typed
              rw [Option.some.inj (first.symm.trans found)]
              exact ⟨keyed, back⟩
            · exact fun kind => accepted.has (by simpa [typed] using kind)
            · exact fun kind => accepted.pairs (by simpa [typed] using kind)

/-- Growth neither makes a fault of a relation nor takes one away. -/
theorem relationFault?_of_grows (grown : g.Grows g') (v : Visit) :
    relationFault? g' v = relationFault? g v := by
  unfold relationFault?
  split
  · rfl
  · split
    · split
      · rfl
      · rename_i name _
        rw [Graph.getEntity?, Graph.getEntity?, grown.locate?]
        cases located : g.locate? name with
        | none => rfl
        | some place =>
          simp only [Option.bind_some]
          cases found : g.store[place]? with
          | none =>
            cases found' : g'.store[place]? with
            | none => rfl
            | some t' =>
              obtain ⟨t, there, -⟩ := grown.entity_before found'
              rw [there] at found
              cases found
          | some t =>
            obtain ⟨t', found', grows⟩ := grown.entity found
            simp only [found', kindFault?, leadsTo_has_of_grows grows, grows.name]
    · rfl

/-! ## Fields -/

private theorem fields_of_passes {v : Visit} (passes : Passes v g g') {i : Nat} {e e' : Entity}
    (found : g.store[i]? = some e) (found' : g'.store[i]? = some e') (apart : v.place ≠ i)
    (filled : e'.fields ≠ []) : e.fields ≠ [] ∨
      (v.relation.type = some .hasOne ∨ v.relation.type = some .hasMany) ∧
        v.relation.target = some e.name := by
  cases passes with
  | free | morph =>
    rw [Option.some.inj (found.symm.trans found')]
    exact .inl filled
  | belongs =>
    rw [getElem?_modifyEntity_ne apart] at found'
    rw [Option.some.inj (found.symm.trans found')]
    exact .inl filled
  | @has place t key typed target =>
    by_cases here : place = i
    · subst here
      rw [Option.some.inj (found.symm.trans target.found)]
      exact .inr ⟨typed, target.target⟩
    · rw [getElem?_modifyEntity_ne here] at found'
      rw [Option.some.inj (found.symm.trans found')]
      exact .inl filled
  | @pairs place t pivot typed target =>
    by_cases here : place = i
    · subst here
      rw [getElem?_modifyEntity found] at found'
      cases found'
      rw [completePairs] at filled
      split at filled <;> exact .inl filled
    · rw [getElem?_modifyEntity_ne here] at found'
      rw [Option.some.inj (found.symm.trans found')]
      exact .inl filled

/-- An entity that has not been visited has fields only if it had some or has been had. -/
private theorem fields_of_run {vs : List Visit} (run : Run g vs g') {i : Nat} {e e' : Entity}
    (found : g.store[i]? = some e) (found' : g'.store[i]? = some e')
    (apart : ∀ v ∈ vs, v.place ≠ i) (filled : e'.fields ≠ []) : e.fields ≠ [] ∨
      ∃ v ∈ vs, (v.relation.type = some .hasOne ∨ v.relation.type = some .hasMany) ∧
        v.relation.target = some e.name := by
  induction run generalizing e' with
  | start =>
    rw [Option.some.inj (found.symm.trans found')]
    exact .inl filled
  | @step vs v g1 g2 before owned passes ih =>
    obtain ⟨e1, found1, grows⟩ := before.grows.entity found
    have last := apart v (List.mem_append_right _ List.mem_cons_self)
    rcases fields_of_passes passes found1 found' last filled with had | has
    · rcases ih found1 (fun v member => apart v (List.mem_append_left _ member)) had with
        old | ⟨v', member, has⟩
      · exact .inl old
      · exact .inr ⟨v', List.mem_append_left _ member, has⟩
    · rw [grows.name] at has
      exact .inr ⟨v, List.mem_append_right _ List.mem_cons_self, has⟩

private theorem fields_of_hasKey {e : Entity} {key : String} (keyed : e.HasKey key) :
    e.fields ≠ [] := by
  obtain ⟨f, found, -⟩ := keyed
  exact List.ne_nil_of_mem (List.mem_of_find?_eq_some found)

/-- An entity that an earlier one has got a key when that one was visited. -/
private theorem fields_of_had (fresh : g.Fresh) {place : Nat} {e' : Entity}
    (run : Run g (visitsBefore g place) g') (found' : g'.store[place]? = some e')
    (unseen : ∀ earlier ∈ g.entities.take place, e'.name ≠ earlier.name)
    (had : ∃ earlier ∈ g.entities.take place, earlier.Has e'.name) : e'.fields ≠ [] := by
  rw [fresh.entities_eq] at unseen had
  obtain ⟨earlier, before, r, member, typed, leads⟩ := had
  obtain ⟨i, inside, rfl⟩ := List.mem_take_iff_getElem.1 before
  have found := List.getElem?_eq_getElem (show i < g.store.length by omega)
  obtain ⟨label, visited⟩ := exists_visitsAt found member
  have settled := run.settles _ (mem_visitsBefore.2 ⟨i, by omega, visited⟩)
  obtain ⟨there, t, key, target, -, field, -⟩ := settled.has_of_typed typed
  -- The relation has led to the first entity of that name, and that is this one.
  have same : t.name = e'.name := Option.some.inj (target.target.symm.trans leads)
  have here : g'.locate? t.name = some place := by
    refine (fresh.grow run.grows).locate?_eq_some.2 ⟨target.named, e', found', same.symm, ?_⟩
    intro other sooner
    obtain ⟨j, within, rfl⟩ := List.mem_take_iff_getElem.1 sooner
    obtain ⟨first, found1, grows⟩ :=
      run.grows.entity_before (List.getElem?_eq_getElem (show j < g'.store.length by omega))
    rw [grows.name, same]
    refine (unseen first ?_).symm
    obtain ⟨within', rfl⟩ := List.getElem?_eq_some_iff.1 found1
    exact List.mem_take_iff_getElem.2 ⟨j, by omega, rfl⟩
  rw [Option.some.inj (target.located.symm.trans here)] at target
  rw [Option.some.inj (found'.symm.trans target.found)]
  exact fields_of_hasKey field

/-! ## Entities -/

/-- An acceptable entity is not at fault by itself when its turn comes. -/
private theorem sound_of_accepts (fresh : g.Fresh) {place : Nat} {e e' : Entity}
    (run : Run g (visitsBefore g place) g') (found : g.store[place]? = some e)
    (found' : g'.store[place]? = some e') (accepted : g.Accepts place e) :
    Sound (g.entityNames.take place) e' := by
  have grows := run.grows.between found found'
  refine ⟨grows.name ▸ accepted.named, ?_, ?_, (complete_of_grows grows).2 accepted.complete,
    (typed_of_grows grows).2 fun r member => (accepted.relations r member).typed⟩
  · rw [Graph.entityNames, ← List.map_take, grows.name]
    intro repeated
    obtain ⟨earlier, member, same⟩ := List.mem_map.1 repeated
    exact accepted.unseen earlier member same.symm
  · rcases accepted.fields with filled | had
    · exact fields_ne_nil_of_grows grows filled
    · rw [← grows.name] at had
      exact fields_of_had fresh run found' (grows.name ▸ accepted.unseen) had

/-- An entity was acceptable if a run has come past it. -/
private theorem accepts_of_run (fresh : g.Fresh) {vs : List Visit} {place i : Nat} {e : Entity}
    (run : Run g vs g') (sound : SoundBefore g g' place) (earlier : i < place)
    (visited : ∀ v ∈ visitsAt g i, v ∈ vs) (found : g.store[i]? = some e) :
    g.Accepts i e := by
  obtain ⟨g1, run1, -, here⟩ := sound i earlier
  obtain ⟨e1, found1, grows⟩ := run1.grows.entity found
  have sound1 := here e1 found1
  refine ⟨grows.name ▸ sound1.named, ?_, ?_, (complete_of_grows grows).1 sound1.complete, ?_⟩
  · intro before member same
    refine sound1.unseen ?_
    rw [Graph.entityNames, ← List.map_take, grows.name, same]
    exact List.mem_map_of_mem member
  · have apart : ∀ v ∈ visitsBefore g i, v.place ≠ i := by
      intro v member
      obtain ⟨j, sooner, inside⟩ := mem_visitsBefore.1 member
      obtain ⟨_, -, there, -⟩ := mem_visitsAt inside
      omega
    refine (fields_of_run run1 found found1 apart sound1.fields).imp id ?_
    rintro ⟨v, member, has⟩
    obtain ⟨j, sooner, inside⟩ := mem_visitsBefore.1 member
    obtain ⟨owner, found2, -, -, owns⟩ := mem_visitsAt inside
    rw [fresh.entities_eq]
    obtain ⟨within, rfl⟩ := List.getElem?_eq_some_iff.1 found2
    exact ⟨_, List.mem_take_iff_getElem.2 ⟨j, by omega, rfl⟩, v.relation, owns, has⟩
  · intro r member
    obtain ⟨label, inside⟩ := exists_visitsAt found member
    have settled := run.settles _ (visited _ inside)
    have judged := settled.sound
    rw [relationFault?_of_grows run.grows] at judged
    exact (relationFault?_eq_none fresh).1 judged

/-- If names are distinct, no entity before one has its name. -/
theorem notMem_take_of_nodup (fresh : g.Fresh) (distinct : g.entityNames.Nodup) {place : Nat}
    {e : Entity} (found : g.store[place]? = some e) : e.name ∉ g.entityNames.take place := by
  intro repeated
  obtain ⟨i, earlier, same⟩ := List.mem_take_iff_getElem.1 repeated
  have here : g.entityNames[place]? = some e.name := by
    rw [fresh.entityNames_eq, List.getElem?_map, found]
    rfl
  obtain ⟨inside, same'⟩ := List.getElem?_eq_some_iff.1 here
  have apart := List.pairwise_iff_getElem.1 distinct i place (by omega) inside (by omega)
  exact apart (same.trans same'.symm)

/-- Every entity of a graph that passes was acceptable. -/
theorem accepts_of_passed (fresh : g.Fresh) (passed : g.check.fault = none) {place : Nat}
    {e : Entity} (found : g.store[place]? = some e) : g.Accepts place e := by
  obtain ⟨run, sound⟩ := fresh.run_of_passed passed
  have inside := (List.getElem?_eq_some_iff.1 found).1
  exact accepts_of_run fresh run sound inside
    (fun v member => mem_visitsBefore.2 ⟨place, inside, member⟩) found

/-! ## Faults -/

private theorem entity_of_fieldFault? {entity : String} {position : Nat} {fields : List Field}
    {f : CheckFault} (fault : fieldFault? entity position fields = some f) :
    (Failure.checkContext f).entity = some entity := by
  induction fields generalizing position with
  | nil => cases fault
  | cons first rest ih =>
    rw [fieldFault?] at fault
    split at fault
    · cases fault; rfl
    · split at fault
      · cases fault; rfl
      · exact ih fault

private theorem entity_of_typeFault? {entity : String} {position : Nat} {rs : List Relation}
    {f : CheckFault} (fault : typeFault? entity position rs = some f) :
    (Failure.checkContext f).entity = some entity := by
  induction rs generalizing position with
  | nil => cases fault
  | cons first rest ih =>
    rw [typeFault?] at fault
    split at fault
    · cases fault; rfl
    · exact ih fault

/-- The fault of an entity by itself is about that entity. -/
theorem concerns_of_entityFault? {seen : List String} {place : Nat} {e : Entity} {f : CheckFault}
    (fault : entityFault? seen place e = some f) : f.Concerns place e := by
  rw [entityFault?] at fault
  by_cases unnamed : e.name = ""
  · rw [if_pos (String.isEmpty_iff.2 unnamed)] at fault
    exact .inl ⟨unnamed, (Option.some.inj fault).symm⟩
  · rw [if_neg (by simpa using unnamed)] at fault
    refine .inr ⟨unnamed, ?_⟩
    split at fault
    · cases fault; rfl
    · split at fault
      · cases fault; rfl
      · rcases Option.or_eq_some_iff.1 fault with first | ⟨-, last⟩
        · exact entity_of_fieldFault? first
        · exact entity_of_typeFault? last

/-- The fault of a relation is about its owner. -/
theorem entity_of_relationFault? {v : Visit} {f : CheckFault}
    (fault : relationFault? g v = some f) : (Failure.checkContext f).entity = some v.entity := by
  unfold relationFault? at fault
  split at fault
  · cases fault; rfl
  · rename_i type _
    split at fault
    · split at fault
      · cases fault; rfl
      · split at fault
        · cases fault; rfl
        · cases type <;> simp only [kindFault?] at fault <;>
            (repeat' split at fault) <;> first | (cases fault; rfl) | cases fault
    · cases fault

/-- A check that ends at a fault does so at the first entity that is not acceptable. -/
theorem Ends.refused {o : Outcome} (fresh : g.Fresh) (ends : Ends g o) {f : CheckFault}
    (failed : o.fault = some f) :
    ∃ place e, g.store[place]? = some e ∧ ¬ g.Accepts place e ∧ f.Concerns place e ∧
      ∀ i < place, ∀ earlier, g.store[i]? = some earlier → g.Accepts i earlier := by
  cases ends with
  | passed => cases failed
  | @entity g' place e' f' run sound found' fault =>
    cases failed
    obtain ⟨e, found, grows⟩ := run.grows.entity_before found'
    refine ⟨place, e, found, ?_, ?_, ?_⟩
    · intro accepted
      have here := sound_of_accepts fresh run found found' accepted
      rw [entityFault?_eq_none.2 here] at fault
      cases fault
    · have concerns := concerns_of_entityFault? fault
      rw [CheckFault.Concerns, grows.name] at concerns
      exact concerns
    · intro i earlier before there
      exact accepts_of_run fresh run sound earlier
        (fun v member => mem_visitsBefore.2 ⟨i, earlier, member⟩) there
  | @relation g' place e f' pre post v run sound found visits fault =>
    cases failed
    have visited : v ∈ visitsAt g place := by simp [visits]
    obtain ⟨owner, there, -, same, member⟩ := mem_visitsAt visited
    obtain rfl : owner = e := Option.some.inj (there.symm.trans found)
    obtain ⟨e', found', grows⟩ := run.grows.entity found
    refine ⟨place, owner, found, ?_, .inr ⟨?_, ?_⟩, ?_⟩
    · intro accepted
      have here := accepted.relations v.relation member
      rw [← same, ← relationFault?_eq_none fresh] at here
      rw [relationFault?_of_grows run.grows, here] at fault
      cases fault
    · exact grows.name ▸ (sound.entity (Nat.lt_succ_self place) found').named
    · rw [entity_of_relationFault? fault, same]
    · intro i earlier before there
      exact accepts_of_run fresh run sound (by omega)
        (fun v member => List.mem_append_left _ (mem_visitsBefore.2 ⟨i, earlier, member⟩)) there

end Check

/-- A check passes a graph exactly if all its entities are acceptable. Otherwise its fault is about
    the first one that is not. -/
theorem Graph.check_passes_iff_accepts {g : Graph} (built : g.Built) :
    (g.check.fault = none ↔
      ∀ place e, g.entities[place]? = some e → g.Accepts place e) ∧
    ∀ f, g.check.fault = some f →
      Failure.checkCategory f ∈ [.structural, .relationDefinition, .referential] ∧
      ∃ place e, g.entities[place]? = some e ∧ ¬ g.Accepts place e ∧ f.Concerns place e ∧
        ∀ i < place, ∀ earlier, g.entities[i]? = some earlier → g.Accepts i earlier := by
  have fresh := built.fresh
  rw [fresh.entities_eq]
  refine ⟨⟨?_, ?_⟩, fun f failed => ⟨?_, fresh.ends.refused fresh failed⟩⟩
  · intro passed place e found
    obtain ⟨run, sound⟩ := fresh.run_of_passed passed
    have inside := (List.getElem?_eq_some_iff.1 found).1
    exact Check.accepts_of_run fresh run sound inside
      (fun v member => Check.mem_visitsBefore.2 ⟨place, inside, member⟩) found
  · intro accepted
    cases failed : g.check.fault with
    | none => rfl
    | some f =>
      obtain ⟨place, e, found, refused, -⟩ := fresh.ends.refused fresh failed
      exact absurd (accepted place e found) refused
  · cases f <;> simp [Failure.checkCategory]

/-- Posts have no field but are had by users; their relation to nobody is what is refused. -/
theorem Graph.check_passes_iff_accepts_blog : ∃ g warnings,
    Loader.build {} (some (Document.blog "Nobody")) (.text "json") = .ok (g, warnings) ∧
      g.check.fault = some (.targetUnknown "Post" "nobodies" "Nobody") ∧
      ∃ place e, g.entities[place]? = some e ∧ ¬ g.Accepts place e ∧ e.name = "Post" := by
  have fails : Loader.builds {} (some (Document.blog "Nobody")) (.text "json") (fun g =>
      g.check.fault == some (.targetUnknown "Post" "nobodies" "Nobody")) = true := by
    decide +kernel
  obtain ⟨g, warnings, done, judged⟩ := Loader.exists_of_builds fails
  have fault : g.check.fault = some (.targetUnknown "Post" "nobodies" "Nobody") := by
    simpa using judged
  obtain ⟨-, place, e, found, refused, concerns, -⟩ :=
    (Graph.check_passes_iff_accepts ⟨_, _, _, _, done⟩).2 _ fault
  refine ⟨g, warnings, done, fault, place, e, found, refused, ?_⟩
  rcases concerns with ⟨-, other⟩ | ⟨-, same⟩
  · cases other
  · exact (Option.some.inj same).symm

end EntityGraph
