import EntityGraph.Proofs.Settled
import EntityGraph.Proofs.Sound

/-!
Runs: how a whole check goes. A run is a list of relations of the graph that have passed their
checks one after the other, and the graph that this leads to. Only relations that the graph has from
the beginning occur in a run: those that a check adds are settled, so visiting them changes nothing.
`Ends` says how a check ends, and `Graph.Fresh.ends` that every check of a fresh graph does so.
-/
namespace EntityGraph

namespace Check

/-! ## Visits -/

/-- The visits of some relations of the entity at a place, from a position on. -/
def visitsFrom (place : Nat) (entity : String) : (position : Nat) → List Relation → List Visit
  | _, [] => []
  | position, r :: rest =>
    ⟨place, entity, r, relationLabel r position⟩ :: visitsFrom place entity (position + 1) rest

/-- The visits of the relations of the entity at a place. -/
def visitsAt (g : Graph) (place : Nat) : List Visit :=
  match g.store[place]? with
  | none => []
  | some e => visitsFrom place e.name 0 e.relations

/-- The visits of all relations of the entities before a place. -/
def visitsBefore (g : Graph) : (place : Nat) → List Visit
  | 0 => []
  | place + 1 => visitsBefore g place ++ visitsAt g place

theorem mem_visitsFrom {place : Nat} {entity : String} {position : Nat} {rs : List Relation}
    {v : Visit} (member : v ∈ visitsFrom place entity position rs) :
    v.place = place ∧ v.entity = entity ∧ v.relation ∈ rs := by
  induction rs generalizing position with
  | nil => cases member
  | cons r rest ih =>
    rcases List.mem_cons.1 member with rfl | later
    · exact ⟨rfl, rfl, List.mem_cons_self⟩
    · obtain ⟨here, named, inside⟩ := ih later
      exact ⟨here, named, List.mem_cons_of_mem _ inside⟩

theorem exists_visitsFrom (place : Nat) (entity : String) (position : Nat) {rs : List Relation}
    {r : Relation} (member : r ∈ rs) :
    ∃ label, (⟨place, entity, r, label⟩ : Visit) ∈ visitsFrom place entity position rs := by
  induction rs generalizing position with
  | nil => cases member
  | cons first rest ih =>
    rcases List.mem_cons.1 member with rfl | later
    · exact ⟨_, List.mem_cons_self⟩
    · obtain ⟨label, inside⟩ := ih (position + 1) later
      exact ⟨label, List.mem_cons_of_mem _ inside⟩

theorem visitsAt_of_found {g : Graph} {place : Nat} {e : Entity}
    (found : g.store[place]? = some e) :
    visitsAt g place = visitsFrom place e.name 0 e.relations := by
  rw [visitsAt, found]

theorem mem_visitsAt {g : Graph} {place : Nat} {v : Visit} (member : v ∈ visitsAt g place) :
    ∃ e, g.store[place]? = some e ∧ v.place = place ∧ v.entity = e.name ∧
      v.relation ∈ e.relations := by
  cases found : g.store[place]? with
  | none =>
    rw [visitsAt, found] at member
    cases member
  | some e =>
    rw [visitsAt_of_found found] at member
    exact ⟨e, rfl, mem_visitsFrom member⟩

theorem exists_visitsAt {g : Graph} {place : Nat} {e : Entity}
    (found : g.store[place]? = some e) {r : Relation} (member : r ∈ e.relations) :
    ∃ label, (⟨place, e.name, r, label⟩ : Visit) ∈ visitsAt g place := by
  rw [visitsAt_of_found found]
  exact exists_visitsFrom place e.name 0 member

theorem mem_visitsBefore {g : Graph} {place : Nat} {v : Visit} :
    v ∈ visitsBefore g place ↔ ∃ i < place, v ∈ visitsAt g i := by
  induction place with
  | zero => simp [visitsBefore]
  | succ place ih =>
    rw [visitsBefore, List.mem_append, ih]
    constructor
    · rintro (⟨i, earlier, inside⟩ | here)
      · exact ⟨i, by omega, inside⟩
      · exact ⟨place, by omega, here⟩
    · rintro ⟨i, earlier, inside⟩
      rcases Nat.lt_succ_iff_lt_or_eq.1 earlier with before | rfl
      · exact .inl ⟨i, before, inside⟩
      · exact .inr inside

/-! ## Runs -/

/-- Relations of a graph that have passed their checks one after the other, and the graph that this
    leads to. -/
inductive Run (g : Graph) : List Visit → Graph → Prop
  | start : Run g [] g
  | step {vs : List Visit} {v : Visit} {g' g'' : Graph} (before : Run g vs g') (owned : v.Owned g)
      (passes : Passes v g' g'') : Run g (vs ++ [v]) g''

namespace Run

variable {g g' : Graph} {vs : List Visit}

theorem repairs (run : Run g vs g') : Repairs g g' := by
  induction run with
  | start => exact .refl g
  | step before owned passes ih => exact ih.trans (passes.repairs (owned.grow ih.grows))

theorem grows (run : Run g vs g') : g.Grows g' :=
  run.repairs.grows

/-- All relations of a run are settled at its end. -/
theorem settles (run : Run g vs g') : ∀ v ∈ vs, Settled g' v.place v.entity v.relation := by
  induction run with
  | start => simp
  | step before owned passes ih =>
    intro v member
    have owned' := owned.grow before.grows
    rcases List.mem_append.1 member with old | new
    · exact (ih v old).grow (passes.grows owned')
    · rw [List.mem_singleton.1 new]
      exact passes.settles owned'

/-- An entity whose relations have all been visited has settled relations only. -/
theorem settled_of_visited (run : Run g vs g') {place : Nat} {e e' : Entity}
    (found : g.store[place]? = some e) (found' : g'.store[place]? = some e')
    (visited : ∀ v ∈ visitsAt g place, v ∈ vs) :
    ∀ r ∈ e'.relations, Settled g' place e'.name r := by
  intro r member
  obtain ⟨added, same, settled⟩ := run.repairs.between found found'
  rw [(run.grows.between found found').name]
  rw [same] at member
  rcases List.mem_append.1 member with old | new
  · obtain ⟨label, inside⟩ := exists_visitsAt found old
    exact run.settles _ (visited _ inside)
  · exact settled r new

end Run

/-- The entities before a place were not at fault by themselves when a run came to them, and the
    graph has only grown since. -/
def SoundBefore (g g' : Graph) (place : Nat) : Prop :=
  ∀ i < place, ∃ g1, Run g (visitsBefore g i) g1 ∧ g1.Grows g' ∧
    ∀ e, g1.store[i]? = some e → Sound (g.entityNames.take i) e

theorem SoundBefore.grow {g g' g'' : Graph} {place : Nat} (sound : SoundBefore g g' place)
    (grown : g'.Grows g'') : SoundBefore g g'' place := by
  intro i earlier
  obtain ⟨g1, run, grows, here⟩ := sound i earlier
  exact ⟨g1, run, grows.trans grown, here⟩

theorem SoundBefore.succ {g g' : Graph} {place : Nat} (sound : SoundBefore g g' place)
    (run : Run g (visitsBefore g place) g')
    (here : ∀ e, g'.store[place]? = some e → Sound (g.entityNames.take place) e) :
    SoundBefore g g' (place + 1) := by
  intro i earlier
  rcases Nat.lt_succ_iff_lt_or_eq.1 earlier with before | rfl
  · exact sound i before
  · exact ⟨g', run, .refl g', here⟩

/-- The entities before a place are still not at fault by themselves. -/
theorem SoundBefore.entity {g g' : Graph} {place : Nat} (sound : SoundBefore g g' place) {i : Nat}
    (earlier : i < place) {e : Entity} (found : g'.store[i]? = some e) :
    Sound (g'.entityNames.take i) e := by
  obtain ⟨g1, run, grows, here⟩ := sound i earlier
  obtain ⟨before, found', grown⟩ := grows.entity_before found
  rw [grows.entityNames, run.grows.entityNames]
  exact (here before found').grow grown

/-- Names that are new one after the other are distinct. -/
theorem SoundBefore.nodup {g g' : Graph} (fresh : g.Fresh)
    (sound : SoundBefore g g' g.store.length) : g.entityNames.Nodup := by
  rw [fresh.entityNames_eq]
  refine List.pairwise_iff_getElem.2 fun i j before after earlier same => ?_
  rw [List.length_map] at before after
  obtain ⟨g1, run, -, here⟩ := sound j after
  obtain ⟨e, found, grows⟩ := run.grows.entity (List.getElem?_eq_getElem after)
  refine (here e found).unseen ?_
  rw [grows.name, fresh.entityNames_eq]
  refine List.mem_take_iff_getElem.2 ⟨i, by simp; omega, ?_⟩
  simpa using same

/-! ## Owners -/

/-- The relations of an entity with a new name are visited as those of the first of its name. -/
theorem owned_of_sound {g : Graph} (fresh : g.Fresh) {place : Nat} {e : Entity}
    (found : g.store[place]? = some e) (named : e.name ≠ "")
    (unseen : e.name ∉ g.entityNames.take place) {v : Visit}
    (visited : v ∈ visitsAt g place) : v.Owned g := by
  rw [visitsAt_of_found found] at visited
  obtain ⟨here, same, member⟩ := mem_visitsFrom visited
  refine ⟨fresh.locate?_eq_some.2 ⟨same ▸ named, e, here ▸ found, same.symm, ?_⟩, e,
    here ▸ found, same.symm, member⟩
  intro other earlier repeated
  rw [here] at earlier
  refine unseen ?_
  rw [fresh.entityNames_eq, ← List.map_take]
  exact List.mem_map.2 ⟨other, earlier, repeated.trans same⟩

/-! ## Checks of relations -/

@[simp] theorem andThen_clean (g : Graph) (next : Graph → Outcome) :
    (Outcome.clean g).andThen next = next g := rfl

@[simp] theorem andThen_failed (g : Graph) (f : CheckFault) (next : Graph → Outcome) :
    (Outcome.failed g f).andThen next = .failed g f := rfl

section
variable {place position : Nat} {entity : String} {rs : List Relation}

/-- A check passes settled relations by. -/
theorem checkRelations_of_settled {g : Graph} (fresh : g.Fresh)
    (owned : ∀ v ∈ visitsFrom place entity position rs, v.Owned g)
    (settled : ∀ r ∈ rs, Settled g place entity r) :
    checkRelations place entity position rs g = .clean g := by
  induction rs generalizing position with
  | nil => rfl
  | cons r rest ih =>
    rw [checkRelations, checkRelation_of_settled fresh (owned _ List.mem_cons_self)
      (settled r List.mem_cons_self), andThen_clean]
    exact ih (fun v member => owned v (List.mem_cons_of_mem _ member))
      fun r member => settled r (List.mem_cons_of_mem _ member)

/-- A check ends at the first relation at fault if those before it are settled. -/
theorem checkRelations_of_fault {g : Graph} {pre post : List Visit} {v : Visit} {f : CheckFault}
    (fresh : g.Fresh) (visits : visitsFrom place entity position rs = pre ++ v :: post)
    (owned : ∀ v ∈ pre, v.Owned g)
    (settled : ∀ v ∈ pre, Settled g v.place v.entity v.relation)
    (fault : relationFault? g v = some f) (more : List Relation) :
    checkRelations place entity position (rs ++ more) g = .failed g f := by
  induction rs generalizing position pre with
  | nil => simp [visitsFrom] at visits
  | cons r rest ih =>
    rw [List.cons_append, checkRelations]
    cases pre with
    | nil =>
      obtain ⟨rfl, -⟩ := List.cons.inj visits
      rw [checkRelation_of_fault fault, andThen_failed]
    | cons first pre =>
      obtain ⟨rfl, later⟩ := List.cons.inj visits
      rw [checkRelation_of_settled fresh (owned _ List.mem_cons_self)
        (settled _ List.mem_cons_self), andThen_clean]
      exact ih later (fun v member => owned v (List.mem_cons_of_mem _ member))
        fun v member => settled v (List.mem_cons_of_mem _ member)

/-- A check of relations goes on with the run or ends at a relation at fault. The relations that
    the graph has had from the beginning are followed by settled ones. -/
theorem checkRelations_run {g g' : Graph} {vs : List Visit} {more : List Relation}
    (fresh : g.Fresh) (run : Run g vs g')
    (owned : ∀ v ∈ visitsFrom place entity position rs, v.Owned g)
    (ownedMore : ∀ position, ∀ v ∈ visitsFrom place entity position more, v.Owned g')
    (settled : ∀ r ∈ more, Settled g' place entity r) :
    (∃ g'', checkRelations place entity position (rs ++ more) g' = .clean g'' ∧
      Run g (vs ++ visitsFrom place entity position rs) g'') ∨
    ∃ pre v post g'' f, visitsFrom place entity position rs = pre ++ v :: post ∧
      checkRelations place entity position (rs ++ more) g' = .failed g'' f ∧
      Run g (vs ++ pre) g'' ∧ relationFault? g'' v = some f := by
  induction rs generalizing position vs g' with
  | nil =>
    refine .inl ⟨g', ?_, by simpa [visitsFrom] using run⟩
    exact checkRelations_of_settled (fresh.grow run.grows) (ownedMore position) settled
  | cons r rest ih =>
    let v : Visit := ⟨place, entity, r, relationLabel r position⟩
    have ownedHere : v.Owned g := owned v List.mem_cons_self
    cases judged : relationFault? g' v with
    | some f =>
      refine .inr ⟨[], v, _, g', f, rfl, ?_, by simpa using run, judged⟩
      rw [List.cons_append, checkRelations, checkRelation_of_fault judged, andThen_failed]
    | none =>
      have ownedNow := ownedHere.grow run.grows
      have freshNow := fresh.grow run.grows
      obtain ⟨g1, checked, passes⟩ :=
        checkRelation_of_sound ownedNow.named (ownedNow.trimmed freshNow) freshNow judged
      have grown := passes.grows ownedNow
      have unfolded : checkRelations place entity position (r :: rest ++ more) g' =
          checkRelations place entity (position + 1) (rest ++ more) g1 := by
        rw [List.cons_append, checkRelations, checked, andThen_clean]
      rcases ih (run.step ownedHere passes)
          (fun v member => owned v (List.mem_cons_of_mem _ member))
          (fun position v member => (ownedMore position v member).grow grown)
          (fun r member => (settled r member).grow grown) with
        ⟨g'', passed, after⟩ | ⟨pre, last, post, g'', f, visits, failed, after, fault⟩
      · exact .inl ⟨g'', by rw [unfolded, passed], by simpa [visitsFrom] using after⟩
      · refine .inr ⟨v :: pre, last, post, g'', f, ?_, by rw [unfolded, failed], ?_, fault⟩
        · rw [visitsFrom, visits, List.cons_append]
        · simpa using after

end

/-! ## Whole checks -/

/-- How a check of a graph ends: with all entities passed, at an entity at fault by itself, or at a
    relation at fault. -/
inductive Ends (g : Graph) : Outcome → Prop
  | passed {g' : Graph} (run : Run g (visitsBefore g g.store.length) g')
      (sound : SoundBefore g g' g.store.length) : Ends g (.clean g')
  | entity {g' : Graph} {place : Nat} {e : Entity} {f : CheckFault}
      (run : Run g (visitsBefore g place) g') (sound : SoundBefore g g' place)
      (found : g'.store[place]? = some e)
      (fault : entityFault? (g.entityNames.take place) place e = some f) : Ends g (.failed g' f)
  | relation {g' : Graph} {place : Nat} {e : Entity} {f : CheckFault} {pre post : List Visit}
      {v : Visit} (run : Run g (visitsBefore g place ++ pre) g')
      (sound : SoundBefore g g' (place + 1)) (found : g.store[place]? = some e)
      (visits : visitsAt g place = pre ++ v :: post) (fault : relationFault? g' v = some f) :
      Ends g (.failed g' f)

/-- One entity on the way: its check goes on with the run, or the whole check ends there. -/
private theorem checkEntity_run {g g' : Graph} {place : Nat} {e : Entity} (fresh : g.Fresh)
    (run : Run g (visitsBefore g place) g') (sound : SoundBefore g g' place)
    (found : g'.store[place]? = some e) :
    (∃ g'', checkEntity (g.entityNames.take place) place place e g' = .clean g'' ∧
      Run g (visitsBefore g (place + 1)) g'' ∧ SoundBefore g g'' (place + 1)) ∨
    ∃ g'' f, checkEntity (g.entityNames.take place) place place e g' = .failed g'' f ∧
      Ends g (.failed g'' f) := by
  cases judged : entityFault? (g.entityNames.take place) place e with
  | some f =>
    exact .inr ⟨g', f, by rw [checkEntity, judged], .entity run sound found judged⟩
  | none =>
    have here := entityFault?_eq_none.1 judged
    obtain ⟨e0, found0, grows⟩ := run.grows.entity_before found
    -- The relations at this point are those from the beginning, followed by settled ones.
    obtain ⟨added, same, settled⟩ := run.repairs.between found0 found
    rw [← grows.name] at settled
    have visits : visitsAt g place = visitsFrom place e.name 0 e0.relations := by
      rw [visitsAt_of_found found0, grows.name]
    have owned : ∀ v ∈ visitsFrom place e.name 0 e0.relations, v.Owned g := by
      rw [← visits]
      exact fun v => owned_of_sound fresh found0 (grows.name ▸ here.named)
        (grows.name ▸ here.unseen)
    have ownedMore : ∀ position, ∀ v ∈ visitsFrom place e.name position added,
        v.Owned g' := by
      intro position v member
      obtain ⟨rfl, named, inside⟩ := mem_visitsFrom member
      obtain ⟨label, visited⟩ := exists_visitsAt found
        (same ▸ List.mem_append_right _ inside : v.relation ∈ e.relations)
      have twin := owned_of_sound (fresh.grow run.grows) found here.named
        (run.grows.entityNames ▸ here.unseen) visited
      rw [← named] at twin
      exact ⟨twin.located, twin.owner⟩
    have soundNow : SoundBefore g g' (place + 1) := by
      refine sound.succ run fun other there => ?_
      rw [Option.some.inj (there.symm.trans found)]
      exact here
    have unfolded : checkEntity (g.entityNames.take place) place place e g' =
        checkRelations place e.name 0 (e0.relations ++ added) g' := by
      rw [checkEntity, judged, same]
    have listed := (fresh.grow run.grows).mem_order found
    have grown : g'.Grows (checkRelations place e.name 0 (e0.relations ++ added) g').graph :=
      checkRelations_grows listed
        (Graph.mem_knownNames (Graph.mem_knownPlaces_of_order listed) found)
    rw [unfolded]
    rcases checkRelations_run fresh run owned ownedMore settled with
      ⟨g'', passed, after⟩ | ⟨pre, v, post, g'', f, split, failed, after, fault⟩
    · rw [passed] at grown
      exact .inl ⟨g'', passed, by rw [visitsBefore, visits]; exact after, soundNow.grow grown⟩
    · rw [failed] at grown
      exact .inr ⟨g'', f, failed,
        .relation after (soundNow.grow grown) found0 (visits.trans split) fault⟩

theorem checkEntities_ends {g g' : Graph} {count place : Nat} (fresh : g.Fresh)
    (size : place + count = g.store.length) (run : Run g (visitsBefore g place) g')
    (sound : SoundBefore g g' place) :
    Ends g (checkEntities (List.range' place count) place (g.entityNames.take place) g') := by
  induction count generalizing place g' with
  | zero =>
    obtain rfl : place = g.store.length := size
    exact .passed run sound
  | succ count ih =>
    have inside : place < g'.store.length := by
      rw [← run.grows.store.length_eq]
      omega
    have found := List.getElem?_eq_getElem inside
    rw [List.range'_succ, checkEntities, found]
    rcases checkEntity_run fresh run sound found with
      ⟨g'', passed, after, sound'⟩ | ⟨g'', f, failed, ends⟩
    · simp only [passed, andThen_clean]
      obtain ⟨e, found0, grows⟩ := run.grows.entity_before found
      have seen : g.entityNames.take place ++ [g'.store[place].name] =
          g.entityNames.take (place + 1) := by
        rw [grows.name, List.take_add_one, fresh.entityNames_eq, List.getElem?_map, found0]
        rfl
      rw [seen]
      exact ih (by omega) after sound'
    · simp only [failed, andThen_failed]
      exact ends

end Check

/-- Every check of a fresh graph ends in one of three ways. -/
theorem Graph.Fresh.ends {g : Graph} (fresh : g.Fresh) : Check.Ends g g.check := by
  have frozen : g.freeze = g := freeze_of_frozen fresh.index
  rw [check, frozen, fresh.order, List.range_eq_range']
  exact Check.checkEntities_ends fresh (Nat.zero_add _) .start fun i earlier => by omega

/-- A check that passes has visited everything. -/
theorem Graph.Fresh.run_of_passed {g : Graph} (fresh : g.Fresh) (passed : g.check.fault = none) :
    Check.Run g (Check.visitsBefore g g.store.length) g.check.graph ∧
      Check.SoundBefore g g.check.graph g.store.length := by
  have ends := fresh.ends
  generalize g.check = o at ends passed
  cases ends with
  | passed run sound => exact ⟨run, sound⟩
  | entity | relation => cases passed

end EntityGraph
