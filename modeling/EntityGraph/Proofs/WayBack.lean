import EntityGraph.Proofs.Effect
import EntityGraph.Proofs.Integrity

/-!
The relation that leads back along another one. A check sees to it that there is one of the right
kind; looking it up finds the first relation that leads back at all, whatever its kind. The two are
the same exactly if no other relation to the same entity stands in front.
-/
namespace EntityGraph

/-- Whether a relation is of the kind that leads back along `r`. -/
def Relation.complements (back r : Relation) : Bool :=
  match r.type with
  | some .belongsTo => back.type == some .hasOne || back.type == some .hasMany
  | some .hasOne | some .hasMany => back.type == some .belongsTo
  | some .belongsToMany => back.type == some .belongsToMany && back.pivotTable == r.pivotTable
  | _ => false

namespace Check

variable {g g' : Graph} {e : Entity} {r : Relation}

/-- The target of a settled relation has one that leads back and is of the right kind. -/
private theorem Settled.complemented {place : Nat} (settled : Settled g place e.name r)
    (plain : r.isPolymorphic = false) :
    ∃ t, g.Leads r t ∧ ∃ back ∈ t.relations, back.complements r = true ∧
      back.pointsTo e.name = true := by
  cases settled with
  | free typed => simp [Relation.isPolymorphic, typed, RelationType.isPolymorphic] at plain
  | morph typed polymorphic => simp [Relation.isPolymorphic, typed, polymorphic] at plain
  | belongs typed target _ inverse =>
    obtain ⟨back, member, ⟨type, among, same⟩, leads⟩ := leadsTo_iff.1 inverse
    refine ⟨_, target.leads, back, member, ?_, beq_iff_eq.2 leads⟩
    simpa [Relation.complements, typed, same] using among
  | has typed target _ _ inverse =>
    obtain ⟨back, member, ⟨type, among, same⟩, leads⟩ := leadsTo_iff.1 inverse
    refine ⟨_, target.leads, back, member, ?_, beq_iff_eq.2 leads⟩
    rcases typed with typed | typed <;> simpa [Relation.complements, typed, same] using among
  | pairs typed target tabled inverse =>
    obtain ⟨back, member, same, table, leads⟩ := leadsThrough_iff.1 inverse
    have given := (Relation.filled?_eq_some.1 tabled).1
    refine ⟨_, target.leads, back, member, ?_, beq_iff_eq.2 leads⟩
    simp [Relation.complements, typed, same, table, given]

/-- A run adds relations to their owners only. -/
private theorem owner_of_run {vs : List Visit} (run : Run g vs g') (fresh : g.Fresh)
    (distinct : g.entityNames.Nodup) (consistent : ∀ e ∈ g.entities, e.Consistent)
    (member : e ∈ g'.entities) (owned : r ∈ e.relations) : r.owner = e.name := by
  rw [fresh.entities_eq] at consistent
  rw [(fresh.grow run.grows).entities_eq] at member
  obtain ⟨i, found⟩ := List.mem_iff_getElem?.1 member
  obtain ⟨before, found', grows⟩ := run.grows.entity_before found
  obtain ⟨relations, -⟩ := run.effect fresh distinct found' found
  rw [relations] at owned
  rw [grows.name]
  rcases mem_gather way owned with old | new
  · exact (consistent before (List.mem_of_getElem? found')).owner r old
  · obtain ⟨v, -, wanted⟩ := List.mem_filterMap.1 new
    obtain ⟨-, ⟨-, rfl⟩ | ⟨-, rfl⟩⟩ := back?_eq_some.1 wanted
    · rfl
    · rfl

end Check

/-- A document about categories that have categories. -/
def Document.categories : Source :=
  .document [
    (.text "app", .mapping [(.text "name", .text "Shop")]),
    (.text "entities", .list [.mapping [
      (.text "name", .text "Category"),
      (.text "fields", .list [.mapping [(.text "name", .text "id"), (.text "type", .text "id")]]),
      (.text "relations",
        .list [.mapping [(.text "type", .text "hasMany"), (.text "entity", .text "Category")]])]])]

namespace Graph

theorem Leads.inverse?_eq {g : Graph} {r : Relation} {t : Entity} (leads : g.Leads r t) :
    g.inverse? r = t.relations.find? (·.pointsTo r.owner) := by
  have found : g.target? r = some t := by
    rw [target?, locateTarget?, leads.target, Option.bind_some]
    exact leads.found
  rw [inverse?, found, Option.bind_some]

/-- A search that does not ask for `p` finds the first member with `p` unless another one stands in
    front of it. -/
private theorem exists_found {α : Type} {p q : α → Bool} {xs : List α}
    (present : ∃ x ∈ xs, p x = true ∧ q x = true) :
    ∃ pre first post found, xs = pre ++ first :: post ∧ p first = true ∧ q first = true ∧
      (∀ x ∈ pre, q x = true → p x = false) ∧ xs.find? q = some found ∧
      (p found = true ↔ ∀ x ∈ pre, q x = false) := by
  have search : (xs.find? fun x => p x && q x).isSome := by
    simpa [List.find?_isSome] using present
  obtain ⟨first, found⟩ := Option.isSome_iff_exists.1 search
  obtain ⟨both, pre, post, rfl, others⟩ := List.find?_eq_some_iff_append.1 found
  obtain ⟨right, leads⟩ := Bool.and_eq_true_iff.1 both
  have apart : ∀ x ∈ pre, q x = true → p x = false := by
    intro x before same
    simpa [same] using others x before
  rw [List.find?_append]
  cases shadow : pre.find? q with
  | none =>
    have clear : ∀ x ∈ pre, q x = false := by simpa using shadow
    refine ⟨pre, first, post, first, rfl, right, leads, apart, ?_, fun _ => clear, fun _ => right⟩
    rw [List.find?_cons_of_pos leads]
    rfl
  | some x =>
    have before := List.mem_of_find?_eq_some shadow
    have same : q x = true := List.find?_some shadow
    refine ⟨pre, first, post, x, rfl, right, leads, apart, rfl, ?_⟩
    rw [apart x before same]
    constructor
    · intro wrong
      cases wrong
    · intro clear
      rw [clear x before] at same
      cases same

/-- In a graph that has passed its check some relation that leads back is found for every relation
    to an entity. It is of the right kind exactly if none of another kind stands in front of the
    first one that is. -/
theorem inverse?_of_passed {g : Graph} (built : g.Built) (passed : g.check.fault = none)
    {e : Entity} (member : e ∈ g.check.graph.entities) {r : Relation} (owned : r ∈ e.relations)
    (plain : r.isPolymorphic = false) :
    ∃ t pre back post found, g.check.graph.Leads r t ∧ t.relations = pre ++ back :: post ∧
      back.complements r = true ∧ back.pointsTo e.name = true ∧
      (∀ x ∈ pre, x.pointsTo e.name = true → x.complements r = false) ∧
      g.check.graph.inverse? r = some found ∧ found ∈ t.relations ∧
      found.pointsTo e.name = true ∧
      (found.complements r = true ↔ ∀ x ∈ pre, x.pointsTo e.name = false) := by
  obtain ⟨run, sound⟩ := built.fresh.run_of_passed passed
  obtain ⟨i, -, settled⟩ := Check.settled_of_passed built.fresh passed member
  obtain ⟨t, leads, present⟩ := (settled r owned).complemented plain
  have owner : r.owner = e.name := Check.owner_of_run run built.fresh (sound.nodup built.fresh)
    built.consistent member owned
  obtain ⟨pre, back, post, found, split, right, points, apart, search, kind⟩ :=
    exists_found present
  refine ⟨t, pre, back, post, found, leads, split, right, points, apart, ?_,
    List.mem_of_find?_eq_some search, ?_, kind⟩
  · rw [leads.inverse?_eq, owner, search]
  · exact List.find?_some (p := fun x : Relation => x.pointsTo e.name) search

/-- The way back from categories to their parents stands behind the relation that they have. -/
theorem inverse?_of_passed_categories : ∃ g warnings,
    Loader.build {} (some Document.categories) (.text "json") = .ok (g, warnings) ∧
      g.check.fault = none ∧ ∃ e ∈ g.check.graph.entities, ∃ r ∈ e.relations,
        r.type = some .hasMany ∧ r.isPolymorphic = false ∧
        ∃ t pre back post found, g.check.graph.Leads r t ∧ t.relations = pre ++ back :: post ∧
          back.complements r = true ∧ back.pointsTo e.name = true ∧
          (∀ x ∈ pre, x.pointsTo e.name = true → x.complements r = false) ∧
          g.check.graph.inverse? r = some found ∧ found ∈ t.relations ∧
          found.pointsTo e.name = true ∧
          (found.complements r = true ↔ ∀ x ∈ pre, x.pointsTo e.name = false) := by
  have passes : Loader.builds {} (some Document.categories) (.text "json") (fun g =>
      g.check.fault == none && g.check.graph.entities.any fun e => e.relations.any fun r =>
        r.type == some .hasMany && r.isPolymorphic == false) = true := by
    decide +kernel
  obtain ⟨g, warnings, done, judged⟩ := Loader.exists_of_builds passes
  simp only [Bool.and_eq_true, beq_iff_eq, List.any_eq_true] at judged
  obtain ⟨passed, e, member, r, owned, typed, plain⟩ := judged
  exact ⟨g, warnings, done, passed, e, member, r, owned, typed, plain,
    inverse?_of_passed ⟨_, _, _, _, done⟩ passed member owned plain⟩

/-- Categories are found to lead back from themselves, by the relation that one asks about. -/
theorem inverse?_categories : ∃ g warnings,
    Loader.build {} (some Document.categories) (.text "json") = .ok (g, warnings) ∧
      g.check.fault = none ∧ ∃ e ∈ g.check.graph.entities, ∃ r ∈ e.relations,
        r.type = some .hasMany ∧ g.check.graph.inverse? r = some r ∧ r.complements r = false := by
  have passes : Loader.builds {} (some Document.categories) (.text "json") (fun g =>
      g.check.fault == none && g.check.graph.entities.any fun e => e.relations.any fun r =>
        r.type == some .hasMany && g.check.graph.inverse? r == some r &&
          r.complements r == false) = true := by
    decide +kernel
  obtain ⟨g, warnings, done, judged⟩ := Loader.exists_of_builds passes
  simp only [Bool.and_eq_true, beq_iff_eq, List.any_eq_true] at judged
  obtain ⟨passed, e, member, r, owned, ⟨typed, found⟩, wrong⟩ := judged
  exact ⟨g, warnings, done, passed, e, member, r, owned, typed, found, wrong⟩

end Graph

end EntityGraph
