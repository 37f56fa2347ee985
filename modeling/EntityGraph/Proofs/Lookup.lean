import EntityGraph.Proofs.Built
import EntityGraph.Proofs.Growth

/-!
Looking up names in a fresh graph. The index finds the first entity of a name, wherever the graph
has grown since.
-/
namespace EntityGraph

namespace Graph

/-- The places that a search finds by what is there. -/
private theorem find?_range_any {α : Type} (p : α → Bool) (xs : List α) :
    (List.range xs.length).find? (fun i => (xs[i]?).any p) = xs.findIdx? p := by
  refine Option.ext fun i => ?_
  rw [List.find?_range_eq_some, List.findIdx?_eq_some_iff_getElem]
  constructor
  · rintro ⟨here, inside, before⟩
    rw [List.mem_range] at inside
    refine ⟨inside, by simpa [inside] using here, fun j earlier => ?_⟩
    have there : j < xs.length := by omega
    simpa [there] using before j earlier
  · rintro ⟨inside, here, before⟩
    refine ⟨by simpa [inside] using here, List.mem_range.2 inside, fun j earlier => ?_⟩
    have there : j < xs.length := by omega
    simpa [there] using before j earlier

theorem Fresh.grow {g g' : Graph} (fresh : g.Fresh) (grown : g.Grows g') : g'.Fresh := by
  refine ⟨?_, by rw [grown.index, fresh.index, grown.namedPlaces], fun e' member => ?_⟩
  · rw [grown.order, fresh.order, grown.store.length_eq]
  · obtain ⟨place, found⟩ := List.mem_iff_getElem?.1 member
    obtain ⟨e, before, same⟩ := grown.entity_before found
    rw [same.name]
    exact fresh.trimmed e (List.mem_of_getElem? before)

/-- In a fresh graph names are found as in the store. -/
theorem Fresh.locate?_eq {g : Graph} (fresh : g.Fresh) (name : String) :
    g.locate? name = if name = "" then none else g.store.findIdx? (·.name == name) := by
  rw [locate?, fresh.index]
  by_cases unnamed : name = ""
  · simp [unnamed]
  · have filled : name.isEmpty = false := by simpa using unnamed
    simp only [filled, Bool.false_eq_true, if_false, unnamed, lookup_firstEntries,
      lookup_namedPlaces, fresh.order]
    exact find?_range_any _ g.store

theorem Fresh.locate?_eq_some {g : Graph} (fresh : g.Fresh) {name : String} {place : Nat} :
    g.locate? name = some place ↔ name ≠ "" ∧ ∃ e, g.store[place]? = some e ∧ e.name = name ∧
      ∀ e' ∈ g.store.take place, e'.name ≠ name := by
  rw [fresh.locate?_eq]
  by_cases unnamed : name = ""
  · simp [unnamed]
  · rw [if_neg unnamed, List.findIdx?_eq_some_iff_getElem]
    constructor
    · rintro ⟨inside, named, first⟩
      refine ⟨unnamed, _, List.getElem?_eq_getElem inside, by simpa using named, ?_⟩
      intro e' member
      obtain ⟨i, earlier, rfl⟩ := List.mem_take_iff_getElem.1 member
      simpa using first i (by omega)
    · rintro ⟨-, e, found, named, first⟩
      obtain ⟨inside, rfl⟩ := List.getElem?_eq_some_iff.1 found
      refine ⟨inside, by simpa using named, fun i earlier => ?_⟩
      have member : g.store[i] ∈ g.store.take place :=
        List.mem_take_iff_getElem.2 ⟨i, by omega, rfl⟩
      simpa using first _ member

theorem findIdx?_bind_getElem? {α : Type} (p : α → Bool) (xs : List α) :
    (xs.findIdx? p).bind (xs[·]?) = xs.find? p := by
  induction xs with
  | nil => rfl
  | cons x rest ih =>
    rw [List.findIdx?_cons, List.find?_cons]
    cases p x with
    | true => rfl
    | false =>
      rw [if_neg Bool.false_ne_true, Option.bind_map]
      exact ih

/-- In a fresh graph the entity of a name is the first one that has it. -/
theorem Fresh.getEntity?_eq {g : Graph} (fresh : g.Fresh) {name : String} (filled : name ≠ "") :
    g.getEntity? name = g.entities.find? (·.name == name) := by
  rw [getEntity?, fresh.locate?_eq, if_neg filled, findIdx?_bind_getElem?, fresh.entities_eq]

/-- An entity at a place is the target of a relation. -/
structure Target (g : Graph) (r : Relation) (place : Nat) (t : Entity) : Prop where
  target : r.target = some t.name
  named : t.name ≠ ""
  located : g.locate? t.name = some place
  found : g.store[place]? = some t

theorem Target.grow {g g' : Graph} {r : Relation} {place : Nat} {t : Entity}
    (target : g.Target r place t) (grown : g.Grows g') :
    ∃ t', g'.Target r place t' ∧ t.Grows g.knownNames t' := by
  obtain ⟨t', found, grows⟩ := grown.entity target.found
  refine ⟨t', ⟨?_, ?_, ?_, found⟩, grows⟩
  · rw [grows.name]; exact target.target
  · rw [grows.name]; exact target.named
  · rw [grows.name, grown.locate?]; exact target.located

/-- A relation has one target. -/
theorem Target.unique {g : Graph} {r : Relation} {place place' : Nat} {t t' : Entity}
    (target : g.Target r place t) (target' : g.Target r place' t') : place' = place ∧ t' = t := by
  have same : t'.name = t.name := Option.some.inj (target'.target.symm.trans target.target)
  have here : place' = place :=
    Option.some.inj (target'.located.symm.trans (same ▸ target.located))
  exact ⟨here, Option.some.inj (target'.found.symm.trans (here ▸ target.found))⟩

theorem Target.getEntity? {g : Graph} {r : Relation} {place : Nat} {t : Entity}
    (target : g.Target r place t) : g.getEntity? t.name = some t := by
  rw [Graph.getEntity?, target.located, Option.bind_some, target.found]

end Graph

end EntityGraph
