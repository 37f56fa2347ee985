import EntityGraph.Proofs.Acceptance

/-!
What can be wrong with a graph that a schema text declares. Reading it has already established
names, types and keys, so a check can find only what no single declaration shows: an entity without
fields, a relation that leads nowhere, and a relation whose target does not have its owner. The
reader has warned of the second of these, and of nothing else that a check would pass.
-/
namespace EntityGraph

/-- What a graph that a schema text declares may lack, by the fault that says so. -/
inductive Graph.Lacks (g : Graph) (warnings : List Schema.Warning) : CheckFault → Prop
  | fields {e : Entity} (member : e ∈ g.entities) (empty : e.fields = []) :
      g.Lacks warnings (.fieldsMissing e.name)
  | target {e : Entity} {r : Relation} {line : Int} {target : String} (member : e ∈ g.entities)
      (owned : r ∈ e.relations) (leads : r.target = some target) (unknown : target ∉ g.entityNames)
      (warned : .unknownTarget e.name r.name line target ∈ warnings) :
      g.Lacks warnings (.targetUnknown e.name r.name target)
  | inverse {e t : Entity} {r : Relation} (member : e ∈ g.entities) (owned : r ∈ e.relations)
      (typed : r.type = some .belongsTo) (inside : t ∈ g.entities) (leads : r.target = some t.name)
      (lacking : ¬ t.Has e.name) : g.Lacks warnings (.inverseMissing e.name r.name t.name)

namespace Check

variable {g : Graph} {warnings : List Schema.Warning} {defaultLocalKey : String} {f : CheckFault}

/-! ## Entities -/

/-- A declared entity is at fault by itself only if it has no field. -/
theorem fault_of_declared {seen : List String} {place : Nat} {e e' : Entity} {names : List String}
    (declared : e.Declared defaultLocalKey) (grows : e.Grows names e') (unseen : e.name ∉ seen)
    (fault : entityFault? seen place e' = some f) :
    e.fields = [] ∧ f = .fieldsMissing e.name := by
  have named : e.name ≠ "" := declared.word.ne_empty
  have complete : ∀ f ∈ e'.fields, f.name ≠ "" ∧ f.type ≠ none :=
    (complete_of_grows grows).2 fun f member =>
      ⟨(declared.fields f member).named, (declared.fields f member).typed⟩
  have typed : ∀ r ∈ e'.relations, r.type ≠ none :=
    (typed_of_grows grows).2 fun r member => (declared.relations r member).typed
  by_cases empty : e'.fields = []
  · refine ⟨?_, ?_⟩
    · by_contra filled
      exact fields_ne_nil_of_grows grows filled empty
    · rw [entityFault?, grows.name, if_neg (by simpa using named),
        if_neg (by simpa using unseen), if_pos (by simpa using empty)] at fault
      exact (Option.some.inj fault).symm
  · have sound : Sound seen e' :=
      ⟨grows.name ▸ named, grows.name ▸ unseen, empty, complete, typed⟩
    rw [entityFault?_eq_none.2 sound] at fault
    cases fault

/-! ## Relations -/

theorem label_of_mem_visitsFrom {place position : Nat} {entity : String} {rs : List Relation}
    {v : Visit} (member : v ∈ visitsFrom place entity position rs) :
    ∃ position, v.label = relationLabel v.relation position := by
  induction rs generalizing position with
  | nil => cases member
  | cons r rest ih =>
    rcases List.mem_cons.1 member with rfl | later
    · exact ⟨position, rfl⟩
    · exact ih later

/-- A declared relation at fault leads nowhere, or to an entity that does not have its owner. -/
theorem lacks_of_relationFault? (fresh : g.Fresh) {e : Entity} (member : e ∈ g.entities)
    (declared : e.Declared defaultLocalKey) {v : Visit} (named : v.entity = e.name)
    (labelled : v.label = v.relation.name) (owned : v.relation ∈ e.relations)
    (warned : ∀ target, v.relation.target = some target → target ∉ g.entityNames →
      ∃ line, .unknownTarget e.name v.relation.name line target ∈ warnings)
    (fault : relationFault? g v = some f) : g.Lacks warnings f := by
  have shape := declared.relations v.relation owned
  obtain ⟨type, typed⟩ := Option.ne_none_iff_exists'.1 shape.typed
  rw [relationFault?] at fault
  simp only [typed] at fault
  split at fault
  · rename_i needed
    have bound : v.relation.type ≠ some .morphTo := by
      rw [typed]
      rintro ⟨⟩
      cases needed
    obtain ⟨target, leads⟩ := Option.ne_none_iff_exists'.1 (shape.target_iff.2 bound)
    have filled := shape.target_filled leads
    rw [leads, Relation.filled?_some filled] at fault
    simp only at fault
    cases known : g.getEntity? target with
    | none =>
      -- The reader has looked for the same name among the same ones.
      have unknown : target ∉ g.entityNames := by
        intro inside
        obtain ⟨t, among, same⟩ := List.mem_map.1 inside
        rw [fresh.getEntity?_eq filled] at known
        exact List.find?_eq_none.1 known t among (by simpa using same)
      rw [known] at fault
      obtain rfl : _ = f := Option.some.inj fault
      obtain ⟨line, told⟩ := warned target leads unknown
      rw [named, labelled]
      exact .target member owned leads unknown told
    | some t =>
      rw [known] at fault
      rw [fresh.getEntity?_eq filled] at known
      have inside := List.mem_of_find?_eq_some known
      obtain rfl : t.name = target := by simpa using List.find?_some known
      cases type with
      | belongsTo =>
        obtain ⟨key, keyed⟩ := Option.ne_none_iff_exists'.1
          (shape.keyed (by simp [Relation.isPolymorphic, typed, RelationType.isPolymorphic]))
        simp only [kindFault?, keyed] at fault
        split at fault
        · cases fault
        · rename_i lacking
          rw [leadsTo_has_iff, named] at lacking
          obtain rfl : _ = f := Option.some.inj fault
          rw [named, labelled]
          exact .inverse member owned typed inside leads lacking
      | hasOne | hasMany =>
        obtain ⟨key, keyed⟩ := Option.ne_none_iff_exists'.1
          (shape.keyed (by simp [Relation.isPolymorphic, typed, RelationType.isPolymorphic]))
        simp only [kindFault?, keyed] at fault
        cases fault
      | belongsToMany =>
        obtain ⟨pivot, tabled⟩ := Option.ne_none_iff_exists'.1 (shape.tabled typed)
        simp only [kindFault?, tabled] at fault
        cases fault
      | morphOne | morphMany | morphTo | morphToMany | morphedByMany => cases fault
  · cases fault

end Check

/-- A check of a graph that a schema text declares fails only for what it may lack. If the reader
    has warned of a relation that leads nowhere, then the check does fail. -/
theorem Graph.lacks_of_schema {l : Loader} {s : String} {g : Graph}
    {warnings : List Schema.Warning}
    (done : l.build (some (.text s)) (.text "sdl") = .ok (g, warnings)) :
    (∀ f, g.check.fault = some f → g.Lacks warnings f) ∧
      ((∃ entity relation line target,
        .unknownTarget entity relation line target ∈ warnings) → g.check.fault ≠ none) := by
  have fresh : g.Fresh := Graph.Built.fresh ⟨_, _, _, _, done⟩
  obtain ⟨c, read, rfl⟩ := Loader.build_sdl_eq_ok.1 done
  have declares := Schema.declares_of_read read
  have listed := c.entities_toGraph l.options
  have names := c.entityNames_toGraph l.options
  refine ⟨?_, ?_⟩
  · intro f failed
    have ends := fresh.ends
    generalize (c.toGraph l.options).check = o at ends failed
    cases ends with
    | passed => cases failed
    | @entity g' place e' f' run sound found' fault =>
      cases failed
      obtain ⟨e, found, grows⟩ := run.grows.entity_before found'
      have member : e ∈ (c.toGraph l.options).entities :=
        fresh.entities_eq ▸ List.mem_of_getElem? found
      have unseen := Check.notMem_take_of_nodup fresh (names ▸ declares.distinct) found
      obtain ⟨empty, rfl⟩ :=
        Check.fault_of_declared (declares.entities e (listed ▸ member)) grows unseen fault
      exact .fields member empty
    | @relation g' place e f' pre post v run sound found visits fault =>
      cases failed
      rw [Check.relationFault?_of_grows run.grows] at fault
      have visited : v ∈ Check.visitsAt (c.toGraph l.options) place := by simp [visits]
      obtain ⟨owner, there, -, named, owned⟩ := Check.mem_visitsAt visited
      have member : owner ∈ (c.toGraph l.options).entities :=
        fresh.entities_eq ▸ List.mem_of_getElem? there
      have declared := declares.entities owner (listed ▸ member)
      have labelled : v.label = v.relation.name := by
        rw [Check.visitsAt_of_found there] at visited
        obtain ⟨position, same⟩ := Check.label_of_mem_visitsFrom visited
        rw [same, Check.relationLabel, if_neg]
        simpa using (declared.relations _ owned).named
      refine Check.lacks_of_relationFault? fresh member declared named labelled owned ?_ fault
      rw [names]
      exact declares.warned owner (listed ▸ member) v.relation owned
  · rintro ⟨entity, relation, line, target, told⟩ passed
    obtain ⟨e, member, -, r, owned, -, leads, unknown⟩ := declares.warranted _ _ _ _ told
    obtain ⟨place, found⟩ := List.mem_iff_getElem?.1 member
    have accepted := (Check.accepts_of_passed fresh passed found).relations r owned
    have bound : r.type ≠ some .morphTo := by
      rw [← ((declares.entities e member).relations r owned).target_iff, leads]
      exact Option.some_ne_none _
    obtain ⟨t, inside, -, same⟩ := accepted.target bound
    refine unknown (List.mem_map.2 ⟨t, listed ▸ inside, ?_⟩)
    exact Option.some.inj (same.symm.trans leads)

/-- A text about users with a team that it does not declare. -/
def Schema.teamless : String :=
  "type User \x7b\n  id: ID!\n  team: Team\n\x7d"

/-- The blocks of the text. -/
def Schema.teamlessPieces : List Schema.Piece := [
  .block ⟨.type, "User", [], [(1, ""), (2, "  id: ID!"), (3, "  team: Team"), (4, "")]⟩]

/-- The reader warns of the team, and the check fails for it. -/
theorem Graph.lacks_of_schema_teamless : ∃ g warnings,
    Loader.build {} (some (.text Schema.teamless)) (.text "sdl") = .ok (g, warnings) ∧
      warnings = [.unknownTarget "User" "team" 3 "Team"] ∧
      g.check.fault = some (.targetUnknown "User" "team" "Team") ∧
      g.Lacks warnings (.targetUnknown "User" "team" "Team") := by
  have split : Schema.pieces Schema.teamless = Schema.teamlessPieces := by decide +kernel
  have passes : Loader.buildsPieces {} Schema.teamlessPieces (fun g warnings =>
      warnings == [.unknownTarget "User" "team" 3 "Team"] &&
        g.check.fault == some (.targetUnknown "User" "team" "Team")) = true := by
    decide +kernel
  obtain ⟨g, warnings, done, judged⟩ := Loader.exists_of_buildsPieces split passes
  simp only [Bool.and_eq_true, beq_iff_eq] at judged
  obtain ⟨told, fault⟩ := judged
  exact ⟨g, warnings, done, told, fault, (lacks_of_schema done).1 _ fault⟩

end EntityGraph
