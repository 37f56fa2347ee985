import EntityGraph.Graph.Edit
import EntityGraph.Proofs.Growth

/-!
Frozen graphs. Once a graph is frozen, every name stands for the entity that had it first at that
moment, whatever is done to the graph afterwards: entities may be renamed, put behind others or
taken from the list, checks may pass or fail. No edit touches the index, and an entity keeps its
place in the store whether it is listed or not.
-/
namespace EntityGraph

namespace Graph

/-- The place that a name has by the entries of an index; the empty name is nobody's. -/
def placeIn? (entries : List (String × Nat)) (name : String) : Option Nat :=
  if name = "" then none else entries.lookup name

/-- A graph that was frozen when the entities of its list had the given names and places. -/
structure FrozenAt (entries : List (String × Nat)) (g : Graph) : Prop where
  index : g.index = some (firstEntries entries)
  stays : ∀ entry ∈ entries, entry.2 < g.store.length

/-- A graph in which names still stand for the entities that a scan of the list has found for them
    in `g`. -/
structure Remembers (g' g : Graph) : Prop where
  scan : ∀ name, g.getEntity? name =
    if name = "" then none else g.entities.find? (·.name == name)
  located : ∀ name, g'.locate? name = g.locate? name
  entity : ∀ name place, g.locate? name = some place →
    ∃ e, g'.store[place]? = some e ∧ g'.getEntity? name = some e
  nobody : ∀ name, g.locate? name = none → g'.getEntity? name = none
  target : ∀ r, g'.locateTarget? r = r.target.bind (placeIn? g.namedPlaces)

/-! ## Looking up names -/

theorem locate?_of_unfrozen {g : Graph} (unfrozen : g.index = none) (name : String) :
    g.locate? name = placeIn? g.namedPlaces name := by
  simp only [locate?, unfrozen, placeIn?, lookup_namedPlaces, String.isEmpty_iff]

theorem FrozenAt.locate? {entries : List (String × Nat)} {g : Graph} (frozen : g.FrozenAt entries)
    (name : String) : g.locate? name = placeIn? entries name := by
  simp only [Graph.locate?, frozen.index, placeIn?, lookup_firstEntries, String.isEmpty_iff]

/-- A place that a name stands for is never given up. -/
theorem FrozenAt.exists_entity {entries : List (String × Nat)} {g : Graph}
    (frozen : g.FrozenAt entries) {name : String} {place : Nat}
    (found : placeIn? entries name = some place) : ∃ e, g.store[place]? = some e := by
  rw [placeIn?] at found
  split at found
  · cases found
  · obtain ⟨before, behind, rfl, -⟩ := List.lookup_eq_some_iff.1 found
    have stays : place < g.store.length := frozen.stays (name, place) (by simp)
    exact ⟨_, List.getElem?_eq_getElem stays⟩

theorem frozenAt_freeze {g : Graph} (unfrozen : g.index = none) :
    g.freeze.FrozenAt g.namedPlaces := by
  rw [freeze, unfrozen]
  refine ⟨rfl, fun entry member => ?_⟩
  obtain ⟨place, -, named⟩ := List.mem_filterMap.1 member
  obtain ⟨e, found, rfl⟩ := Option.map_eq_some_iff.1 named
  exact (List.getElem?_eq_some_iff.1 found).1

/-- Before a graph is frozen, a name is looked up by a scan of its list. -/
theorem getEntity?_of_unfrozen {g : Graph} (unfrozen : g.index = none) (name : String) :
    g.getEntity? name = if name = "" then none else g.entities.find? (·.name == name) := by
  simp only [getEntity?, Graph.locate?, unfrozen, String.isEmpty_iff]
  split
  · rfl
  · rw [entities, List.find?_filterMap]
    rfl

end Graph

/-! ## Edits -/

namespace Edit

variable {entries : List (String × Nat)} {g : Graph}

private theorem frozenAt_change (frozen : g.FrozenAt entries) (place : Nat)
    (f : Entity → Except EditFault Entity) : (change g place f).1.FrozenAt entries := by
  rw [change]
  split
  · exact frozen
  · split
    · exact ⟨frozen.index, by simpa [Graph.modifyEntity] using frozen.stays⟩
    · exact frozen

/-- The list is not what names are looked up in. -/
private theorem frozenAt_relist (frozen : g.FrozenAt entries) (places : List Nat) :
    (relist g places).1.FrozenAt entries := by
  rw [relist]
  split
  · exact ⟨frozen.index, frozen.stays⟩
  · exact frozen

private theorem frozenAt_check (frozen : g.FrozenAt entries) : g.check.graph.FrozenAt entries := by
  have grown := g.check_grows
  rw [Graph.freeze_of_frozen frozen.index] at grown
  exact ⟨grown.index.trans frozen.index, grown.store.length_eq ▸ frozen.stays⟩

/-- No edit touches the index of a frozen graph or takes an entity from its place. -/
theorem frozenAt_apply (frozen : g.FrozenAt entries) (edit : Edit) :
    (edit.apply g).1.FrozenAt entries := by
  cases edit with
  | freeze =>
    rw [apply, Graph.freeze_of_frozen frozen.index]
    exact frozen
  | check => exact frozenAt_check frozen
  | checkUnder options =>
    have checked := frozenAt_check (g := { g with options := options }) ⟨frozen.index, frozen.stays⟩
    exact ⟨checked.index, checked.stays⟩
  | make e =>
    refine ⟨frozen.index, fun entry member => ?_⟩
    have before := frozen.stays entry member
    simp only [apply, List.length_append]
    omega
  | add place =>
    have refused : g.isFrozen = true := by rw [Graph.isFrozen, frozen.index]; rfl
    rw [apply]
    split
    · exact frozen
    · rw [if_pos refused]
      exact frozen
  | append | setEntities => exact frozenAt_relist frozen _
  | addField place | addRelation place | setEntity place | setField place | setRelation place =>
    exact frozenAt_change frozen place _
  | setApp | setEnums | setOptions => exact ⟨frozen.index, frozen.stays⟩

end Edit

namespace Graph

theorem FrozenAt.edited {entries : List (String × Nat)} {g : Graph} (frozen : g.FrozenAt entries)
    (edits : List Edit) : (g.edited edits).FrozenAt entries := by
  induction edits generalizing g with
  | nil => exact frozen
  | cons edit rest ih => exact ih (Edit.frozenAt_apply frozen edit)

/-- Whatever is done to a graph after it has been frozen, each name stands for the entity that a
    scan has found for it before, and for none if the scan has found none. -/
theorem remembers_edited {g : Graph} (unfrozen : g.index = none) (edits : List Edit) :
    (g.freeze.edited edits).Remembers g := by
  have frozen := (frozenAt_freeze unfrozen).edited edits
  have located : ∀ name, (g.freeze.edited edits).locate? name = g.locate? name := fun name =>
    (frozen.locate? name).trans (locate?_of_unfrozen unfrozen name).symm
  refine ⟨getEntity?_of_unfrozen unfrozen, located, fun name place found => ?_,
    fun name unknown => ?_, fun r => ?_⟩
  · have first := (locate?_of_unfrozen unfrozen name).symm.trans found
    obtain ⟨e, there⟩ := frozen.exists_entity first
    exact ⟨e, there, by rw [getEntity?, located, found, Option.bind_some, there]⟩
  · rw [getEntity?, located, unknown, Option.bind_none]
  · rw [locateTarget?]
    cases r.target with
    | none => rfl
    | some name => exact frozen.locate? name

/-- Two entities of one name, one without a name, and one more. -/
def namesakes : Graph :=
  { store := [{ name := "Tag" }, {}, { name := "Tag" }, { name := "Post" }] }

/-- The first entity stays the one called `Tag`, although it changes its name for that of another
    entity, the check in between fails and the list loses it in the end. -/
theorem remembers_edited_namesakes :
    let edits : List Edit := [.check, .setEntity 0 "name" (.text "Post"), .make { name := "Late" },
      .append 4, .add 4, .setEntities [3, 4], .freeze]
    let left := namesakes.freeze.edited edits
    namesakes.index = none ∧ left.entityNames = ["Post", "Late"] ∧
      left.locate? "Tag" = some 0 ∧ (left.getEntity? "Tag").map Entity.name = some "Post" ∧
      left.Remembers namesakes := by
  intro edits left
  exact ⟨rfl, by decide +kernel, by decide +kernel, by decide +kernel, remembers_edited rfl edits⟩

end Graph

end EntityGraph
