import EntityGraph.Proofs.Run

/-!
What a check that ends at a fault leaves behind. Nothing is taken back: the graph keeps whatever the
relations before the fault have been completed with, so it is untouched exactly if those had all
that a check asks for.
-/
namespace EntityGraph

namespace Check

/-- Where a check of `g` stands when it ends with `g'` at a fault: it has got past the relations
    `vs`, and the entity or the relation that comes next is at fault. -/
inductive StopsAfter (g : Graph) (vs : List Visit) (g' : Graph) (f : CheckFault) : Prop
  | entity {place : Nat} {e : Entity} (past : vs = visitsBefore g place)
      (next : g'.store[place]? = some e)
      (fault : entityFault? (g.entityNames.take place) place e = some f)
  | relation {place : Nat} {pre post : List Visit} {v : Visit}
      (past : vs = visitsBefore g place ++ pre) (next : visitsAt g place = pre ++ v :: post)
      (fault : relationFault? g' v = some f)

variable {g g' : Graph} {vs : List Visit}

theorem visitsBefore_mono {place count : Nat} (earlier : place ≤ count) :
    visitsBefore g place <+: visitsBefore g count := by
  induction earlier with
  | refl => exact List.prefix_rfl
  | step _ ih => exact ih.trans (List.prefix_append _ _)

/-- A run past settled relations leads nowhere. -/
theorem Run.eq_of_settled (run : Run g vs g')
    (settled : ∀ v ∈ vs, Settled g v.place v.entity v.relation) : g' = g := by
  induction run with
  | start => rfl
  | @step vs v g1 g2 before owned passes ih =>
    obtain rfl := ih fun v member => settled v (List.mem_append_left _ member)
    exact passes.eq_of_settled (settled v (by simp))

theorem Run.eq_iff (run : Run g vs g') :
    g' = g ↔ ∀ v ∈ vs, Settled g v.place v.entity v.relation := by
  constructor
  · rintro rfl
    exact run.settles
  · exact run.eq_of_settled

theorem Ends.exists_run {o : Outcome} (ends : Ends g o) {f : CheckFault}
    (failed : o.fault = some f) :
    ∃ vs, vs <+: visitsBefore g g.store.length ∧ StopsAfter g vs o.graph f ∧
      Run g vs o.graph := by
  cases ends with
  | passed => cases failed
  | @entity g' place e _ run _ found fault =>
    cases failed
    have inside := (List.getElem?_eq_some_iff.1 found).1
    rw [← run.grows.store.length_eq] at inside
    exact ⟨_, visitsBefore_mono inside.le, .entity rfl found fault, run⟩
  | @relation g' place e _ pre post v run _ found visits fault =>
    cases failed
    have inside := (List.getElem?_eq_some_iff.1 found).1
    have here : visitsBefore g place ++ pre <+: visitsBefore g (place + 1) := by
      rw [visitsBefore, visits, List.prefix_append_right_inj]
      exact List.prefix_append _ _
    exact ⟨_, here.trans (visitsBefore_mono inside), .relation rfl visits fault, run⟩

end Check

/-- A document about users with posts, and posts of authors that it does not declare. -/
def Document.orphans : Source :=
  let entity (name type related : String) : Value :=
    .mapping [(.text "name", .text name),
      (.text "fields", .list [.mapping [(.text "name", .text "id"), (.text "type", .text "id")]]),
      (.text "relations",
        .list [.mapping [(.text "type", .text type), (.text "entity", .text related)]])]
  .document [
    (.text "app", .mapping [(.text "name", .text "Blog")]),
    (.text "entities", .list [entity "User" "hasMany" "Post", entity "Post" "belongsTo" "Author"])]

namespace Graph

/-- A check that ends at a fault has completed what it got past before, and nothing else; it leaves
    the graph untouched exactly if there was nothing to complete. -/
theorem untouched_iff_of_failed {g : Graph} (built : g.Built) {f : CheckFault}
    (failed : g.check.fault = some f) :
    ∃ vs, vs <+: Check.visitsBefore g g.store.length ∧ Check.StopsAfter g vs g.check.graph f ∧
      Check.Run g vs g.check.graph ∧
      (g.check.graph = g ↔ ∀ v ∈ vs, Check.Settled g v.place v.entity v.relation) := by
  obtain ⟨vs, first, stops, run⟩ := built.fresh.ends.exists_run failed
  exact ⟨vs, first, stops, run, run.eq_iff⟩

theorem untouched_iff_of_failed_orphans : ∃ g warnings,
    Loader.build {} (some Document.orphans) (.text "json") = .ok (g, warnings) ∧
      g.check.fault = some (.targetUnknown "Post" "author" "Author") ∧
      ∃ vs, vs <+: Check.visitsBefore g g.store.length ∧
        Check.StopsAfter g vs g.check.graph (.targetUnknown "Post" "author" "Author") ∧
        Check.Run g vs g.check.graph ∧
        (g.check.graph = g ↔ ∀ v ∈ vs, Check.Settled g v.place v.entity v.relation) := by
  have fails : Loader.builds {} (some Document.orphans) (.text "json") (fun g =>
      g.check.fault == some (.targetUnknown "Post" "author" "Author")) = true := by
    decide +kernel
  obtain ⟨g, warnings, done, fault⟩ := Loader.exists_of_builds fails
  have failed : g.check.fault = some (.targetUnknown "Post" "author" "Author") := by
    simpa using fault
  exact ⟨g, warnings, done, failed, untouched_iff_of_failed ⟨_, _, _, _, done⟩ failed⟩

/-- Posts keep the key of their users and the way back to them although nobody is their author. -/
theorem touched_orphans : ∃ g warnings,
    Loader.build {} (some Document.orphans) (.text "json") = .ok (g, warnings) ∧
      g.check.fault = some (.targetUnknown "Post" "author" "Author") ∧
      g.entities.map (fun e => (e.fieldNames, e.relations.length)) = [(["id"], 1), (["id"], 1)] ∧
      g.check.graph.entities.map (fun e => (e.fieldNames, e.relations.length)) =
        [(["id"], 1), (["id", "user_id"], 2)] := by
  have fails : Loader.builds {} (some Document.orphans) (.text "json") (fun g =>
      g.check.fault == some (.targetUnknown "Post" "author" "Author") &&
        g.entities.map (fun e => (e.fieldNames, e.relations.length)) ==
          [(["id"], 1), (["id"], 1)] &&
        g.check.graph.entities.map (fun e => (e.fieldNames, e.relations.length)) ==
          [(["id"], 1), (["id", "user_id"], 2)]) = true := by
    decide +kernel
  obtain ⟨g, warnings, done, judged⟩ := Loader.exists_of_builds fails
  simp only [Bool.and_eq_true, beq_iff_eq] at judged
  obtain ⟨⟨failed, before⟩, after⟩ := judged
  exact ⟨g, warnings, done, failed, before, after⟩

end Graph

end EntityGraph
