import EntityGraph.Proofs.Run

/-!
A check of a graph that has been checked. It goes the same way as the first one, meets the relations
that the first one has added as well, and changes nothing: if the first check has passed it passes,
and otherwise it ends at the same fault.
-/
namespace EntityGraph

namespace Check

/-- An entity whose check has been passed is passed again. -/
private theorem checkEntity_of_settled {g : Graph} {place : Nat} {e : Entity} (fresh : g.Fresh)
    (found : g.store[place]? = some e) (sound : Sound (g.entityNames.take place) e)
    (settled : ∀ r ∈ e.relations, Settled g place e.name r) :
    checkEntity (g.entityNames.take place) place place e g = .clean g := by
  have owned := fun v => owned_of_sound (v := v) fresh found sound.named sound.unseen
  rw [visitsAt_of_found found] at owned
  rw [checkEntity, entityFault?_eq_none.2 sound]
  exact checkRelations_of_settled fresh owned settled

/-- A check goes past entities whose checks have been passed. -/
private theorem checkEntities_of_settled {g : Graph} {place : Nat} (fresh : g.Fresh)
    (inside : place ≤ g.store.length)
    (sound : ∀ i < place, ∀ e, g.store[i]? = some e → Sound (g.entityNames.take i) e)
    (settled : ∀ i < place, ∀ e, g.store[i]? = some e →
      ∀ r ∈ e.relations, Settled g i e.name r) :
    checkEntities g.order 0 [] g =
      checkEntities (List.range' place (g.store.length - place)) place
        (g.entityNames.take place) g := by
  induction place with
  | zero => rw [fresh.order, List.range_eq_range']; rfl
  | succ place ih =>
    rw [ih (by omega) (fun i earlier => sound i (by omega))
      (fun i earlier => settled i (by omega))]
    have found := List.getElem?_eq_getElem (show place < g.store.length by omega)
    have here := checkEntity_of_settled fresh found (sound place (by omega) _ found)
      (settled place (by omega) _ found)
    obtain ⟨count, size⟩ : ∃ count, g.store.length - place = count + 1 :=
      ⟨g.store.length - (place + 1), by omega⟩
    have rest : g.store.length - (place + 1) = count := by omega
    have seen : g.entityNames.take place ++ [g.store[place].name] =
        g.entityNames.take (place + 1) := by
      rw [List.take_add_one, fresh.entityNames_eq, List.getElem?_map, found]
      rfl
    rw [size, rest, List.range'_succ, checkEntities, found]
    simp only [here, andThen_clean, seen]

/-- After a run through all that comes before a place, a check gets there without a change. -/
private theorem check_of_run {g g' : Graph} {place : Nat} {vs : List Visit} (fresh : g.Fresh)
    (inside : place ≤ g.store.length) (run : Run g vs g')
    (visited : ∀ v ∈ visitsBefore g place, v ∈ vs) (sound : SoundBefore g g' place) :
    g'.check = checkEntities (List.range' place (g'.store.length - place)) place
      (g'.entityNames.take place) g' := by
  have fresh' := fresh.grow run.grows
  have frozen : g'.freeze = g' := Graph.freeze_of_frozen fresh'.index
  rw [Graph.check, frozen]
  refine checkEntities_of_settled fresh' (run.grows.store.length_eq ▸ inside)
    (fun i earlier e => sound.entity earlier) ?_
  intro i earlier e' found'
  obtain ⟨e, found, -⟩ := run.grows.entity_before found'
  exact run.settled_of_visited found found' fun v member =>
    visited v (mem_visitsBefore.2 ⟨i, earlier, member⟩)

/-- The check of the entity where the first check has ended. -/
private theorem checkEntities_of_failed {g : Graph} {place : Nat} {e : Entity} {f : CheckFault}
    (found : g.store[place]? = some e)
    (failed : checkEntity (g.entityNames.take place) place place e g = .failed g f) :
    checkEntities (List.range' place (g.store.length - place)) place (g.entityNames.take place) g =
      .failed g f := by
  have inside := (List.getElem?_eq_some_iff.1 found).1
  obtain ⟨count, size⟩ : ∃ count, g.store.length - place = count + 1 :=
    ⟨g.store.length - (place + 1), by omega⟩
  rw [size, List.range'_succ, checkEntities, found]
  simp only [failed, andThen_failed]

theorem Ends.check_graph {g : Graph} {o : Outcome} (fresh : g.Fresh) (ends : Ends g o) :
    o.graph.check = o := by
  cases ends with
  | @passed g' run sound =>
    have here := check_of_run fresh le_rfl run (fun v member => member) sound
    rw [run.grows.store.length_eq, Nat.sub_self] at here
    exact here
  | @entity g' place e f run sound found fault =>
    have inside := (List.getElem?_eq_some_iff.1 found).1
    rw [← run.grows.store.length_eq] at inside
    have here := check_of_run fresh (by omega) run (fun v member => member) sound
    refine here.trans (checkEntities_of_failed found ?_)
    rw [run.grows.entityNames, checkEntity, fault]
  | @relation g' place e f pre post v run sound found visits fault =>
    have inside := (List.getElem?_eq_some_iff.1 found).1
    have here := check_of_run fresh (by omega) run
      (fun v member => List.mem_append_left pre member) fun i earlier => sound i (by omega)
    obtain ⟨e', added, found', same, -⟩ := run.repairs.adds found
    have grows := run.grows.between found found'
    -- The relation at fault keeps its place and its label: what was added stands behind it.
    have sound' := sound.entity (by omega) found'
    have owned : ∀ v ∈ visitsAt g place, v.Owned g' := fun v member =>
      (owned_of_sound fresh found (grows.name ▸ sound'.named)
        (grows.name ▸ run.grows.entityNames ▸ sound'.unseen) member).grow run.grows
    refine here.trans (checkEntities_of_failed found' ?_)
    rw [checkEntity, entityFault?_eq_none.2 sound', same, grows.name]
    refine checkRelations_of_fault (fresh.grow run.grows) (visitsAt_of_found found ▸ visits) ?_
      (fun v member => run.settles v (List.mem_append_right _ member)) fault added
    intro v member
    exact owned v (visits ▸ List.mem_append_left _ member)

end Check

/-- Checking once more what a check has left changes nothing and comes to the same end, be it a
    fault or not. -/
theorem Graph.check_check_graph {g : Graph} (built : g.Built) : g.check.graph.check = g.check :=
  built.fresh.ends.check_graph built.fresh

/-- Posts get a key and a way back to their users before the check ends at their relation. -/
theorem Graph.check_check_graph_blog : ∃ g warnings,
    Loader.build {} (some (Document.blog "Nobody")) (.text "json") = .ok (g, warnings) ∧
      g.check.fault = some (.targetUnknown "Post" "nobodies" "Nobody") ∧
      g.check.graph.check = g.check := by
  have fails : Loader.builds {} (some (Document.blog "Nobody")) (.text "json") (fun g =>
      g.check.fault == some (.targetUnknown "Post" "nobodies" "Nobody")) = true := by
    decide +kernel
  obtain ⟨g, warnings, done, fault⟩ := Loader.exists_of_builds fails
  exact ⟨g, warnings, done, by simpa using fault, Graph.check_check_graph ⟨_, _, _, _, done⟩⟩

end EntityGraph
