import EntityGraph.Proofs.Growth

/-!
Entities by themselves: what a check asks of an entity before it comes to its relations. An entity
that has all of it keeps it when it grows.
-/
namespace EntityGraph.Check

private theorem fieldFault?_eq_none {entity : String} {position : Nat} {fields : List Field} :
    fieldFault? entity position fields = none ↔ ∀ f ∈ fields, f.name ≠ "" ∧ f.type ≠ none := by
  induction fields generalizing position with
  | nil => simp [fieldFault?]
  | cons f rest ih =>
    rw [fieldFault?, List.forall_mem_cons, ← @ih (position + 1)]
    by_cases unnamed : f.name = ""
    · simp [unnamed]
    · by_cases untyped : f.type = none
      · simp [unnamed, untyped]
      · simp [unnamed, untyped, Option.isNone_iff_eq_none]

private theorem typeFault?_eq_none {entity : String} {position : Nat} {rs : List Relation} :
    typeFault? entity position rs = none ↔ ∀ r ∈ rs, r.type ≠ none := by
  induction rs generalizing position with
  | nil => simp [typeFault?]
  | cons r rest ih =>
    rw [typeFault?, List.forall_mem_cons, ← @ih (position + 1)]
    by_cases untyped : r.type = none
    · simp [untyped]
    · simp [untyped, Option.isNone_iff_eq_none]

/-- An entity that is not at fault by itself. -/
structure Sound (seen : List String) (e : Entity) : Prop where
  named : e.name ≠ ""
  unseen : e.name ∉ seen
  fields : e.fields ≠ []
  complete : ∀ f ∈ e.fields, f.name ≠ "" ∧ f.type ≠ none
  typed : ∀ r ∈ e.relations, r.type ≠ none

theorem entityFault?_eq_none {seen : List String} {position : Nat} {e : Entity} :
    entityFault? seen position e = none ↔ Sound seen e := by
  rw [entityFault?]
  by_cases unnamed : e.name = ""
  · simp only [String.isEmpty_iff, unnamed, if_true, reduceCtorEq, false_iff]
    exact fun sound => sound.named unnamed
  · by_cases repeated : e.name ∈ seen
    · simp only [String.isEmpty_iff, unnamed, if_false, List.contains_iff_mem, repeated, if_true,
        reduceCtorEq, false_iff]
      exact fun sound => sound.unseen repeated
    · by_cases empty : e.fields = []
      · simp only [String.isEmpty_iff, unnamed, if_false, List.contains_iff_mem, repeated, empty,
          List.isEmpty_nil, if_true, reduceCtorEq, false_iff]
        exact fun sound => sound.fields empty
      · simp only [String.isEmpty_iff, unnamed, if_false, List.contains_iff_mem, repeated,
          List.isEmpty_iff, empty, Option.or_eq_none_iff, fieldFault?_eq_none, typeFault?_eq_none]
        exact ⟨fun ⟨complete, typed⟩ => ⟨unnamed, repeated, empty, complete, typed⟩,
          fun sound => ⟨sound.complete, sound.typed⟩⟩

section
variable {names : List String} {e e' : Entity} (grown : e.Grows names e')
include grown

theorem fields_ne_nil_of_grows (filled : e.fields ≠ []) : e'.fields ≠ [] := by
  obtain ⟨kept, added, fields, keeps, -⟩ := grown.fields
  intro empty
  rw [fields, List.append_eq_nil_iff] at empty
  rw [empty.1] at keeps
  exact filled (List.forall₂_nil_right_iff.1 keeps)

/-- Growth keeps the names and the types of fields and adds fields that have both. -/
theorem complete_of_grows : (∀ f ∈ e'.fields, f.name ≠ "" ∧ f.type ≠ none) ↔
    ∀ f ∈ e.fields, f.name ≠ "" ∧ f.type ≠ none := by
  obtain ⟨kept, added, fields, keeps, adds, -⟩ := grown.fields
  constructor
  · intro complete f member
    obtain ⟨after, inside, grows⟩ := Results.exists_of_mem_right keeps.flip member
    rw [← Field.Grows.name grows, ← Field.Grows.type grows]
    exact complete after (fields ▸ List.mem_append_left _ inside)
  · intro complete f member
    rw [fields] at member
    rcases List.mem_append.1 member with old | new
    · obtain ⟨before, inside, grows⟩ := Results.exists_of_mem_right keeps old
      rw [grows.name, grows.type]
      exact complete before inside
    · exact ⟨(adds f new).named, by rw [(adds f new).typed]; exact Option.some_ne_none _⟩

theorem typed_of_grows : (∀ r ∈ e'.relations, r.type ≠ none) ↔ ∀ r ∈ e.relations, r.type ≠ none := by
  obtain ⟨added, relations, adds⟩ := grown.relations
  rw [relations]
  constructor
  · exact fun typed r member => typed r (List.mem_append_left _ member)
  · intro typed r member
    rcases List.mem_append.1 member with old | new
    · exact typed r old
    · rcases (adds r new).typed with same | same <;> (rw [same]; exact Option.some_ne_none _)

theorem Sound.grow {seen : List String} (sound : Sound seen e) : Sound seen e' :=
  ⟨grown.name ▸ sound.named, grown.name ▸ sound.unseen, fields_ne_nil_of_grows grown sound.fields,
    (complete_of_grows grown).2 sound.complete, (typed_of_grows grown).2 sound.typed⟩

end

end EntityGraph.Check
