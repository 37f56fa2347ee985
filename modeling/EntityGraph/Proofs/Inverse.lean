import EntityGraph.Graph.Check
import EntityGraph.Proofs.Results
import EntityGraph.Proofs.Trim

/-!
The relations that lead back. Between entities whose names are neither empty nor surrounded by
blanks such a relation can always be built, and this is what it looks like.
-/
namespace EntityGraph

open Results

/-! ## Texts that are there -/

theorem Relation.filled?_eq_some {s : Option String} {text : String} :
    Relation.filled? s = some text ↔ s = some text ∧ text ≠ "" := by
  simp [Relation.filled?, Option.filter_eq_some_iff]

@[simp] theorem Relation.filled?_none : Relation.filled? none = none := rfl

@[simp] theorem Relation.filled?_empty : Relation.filled? (some "") = none := rfl

theorem Relation.filled?_some {text : String} (filled : text ≠ "") :
    Relation.filled? (some text) = some text :=
  Relation.filled?_eq_some.2 ⟨rfl, filled⟩

/-- A piece that a convention gives is there. -/
theorem Relation.filled?_orElse {given : Option String} {other : String} (filled : other ≠ "") :
    Relation.filled? (Relation.filled? given <|> some other) ≠ none := by
  cases same : Relation.filled? given with
  | none =>
    show Relation.filled? (some other) ≠ none
    rw [Relation.filled?_some filled]
    exact Option.some_ne_none _
  | some text =>
    show Relation.filled? (some text) ≠ none
    rw [Relation.filled?_some (Relation.filled?_eq_some.1 same).2]
    exact Option.some_ne_none _

theorem Convention.foreignKey_ne_empty (type : RelationType) (owner target : String) :
    Convention.foreignKey type owner target ≠ "" := by
  rw [Convention.foreignKey]
  split <;> simp

theorem Convention.pivotTable_ne_empty (owner target : String) :
    Convention.pivotTable owner target ≠ "" := by
  simp only [Convention.pivotTable]
  split <;> simp

/-! ## Drafts -/

namespace Draft

theorem ends_eq_ok {α : Type} {d : Draft α} {type : RelationType} {owner target : String} :
    d.ends = .ok (type, owner, target) ↔
      d.type = some type ∧ Relation.filled? d.owner = some owner ∧ d.target.getD "" = target ∧
        (type.requiresTarget = true → target ≠ "") := by
  cases typed : d.type with
  | none => simp [ends, typed]
  | some type' =>
    cases owned : Relation.filled? d.owner with
    | none => simp [ends, typed, owned]
    | some owner' =>
      simp only [ends, typed, owned]
      split
      · rename_i unset
        simp only [Bool.and_eq_true, String.isEmpty_iff] at unset
        simp only [reduceCtorEq, false_iff]
        rintro ⟨same, -, rfl, filled⟩
        exact filled (Option.some.inj same ▸ unset.1) unset.2
      · rename_i filled
        simp only [Bool.and_eq_true, String.isEmpty_iff, not_and] at filled
        simp only [Except.ok.injEq, Prod.mk.injEq, Option.some.injEq]
        constructor
        · rintro ⟨rfl, rfl, rfl⟩
          exact ⟨rfl, rfl, rfl, filled⟩
        · rintro ⟨rfl, rfl, rfl, -⟩
          exact ⟨rfl, rfl, rfl⟩

theorem build_eq_ok {d : Draft String} {r : Relation} :
    d.build = .ok r ↔ ∃ type owner target, d.ends = .ok (type, owner, target) ∧
      d.fill type owner target = r := by
  rw [build, map_eq_ok]
  constructor
  · rintro ⟨⟨type, owner, target⟩, found, same⟩
    exact ⟨type, owner, target, found, same⟩
  · rintro ⟨type, owner, target, found, same⟩
    exact ⟨(type, owner, target), found, same⟩

end Draft

/-! ## Relations that a check adds -/

/-- A relation that a check adds. -/
structure Relation.Added (r : Relation) : Prop where
  inferred : r.inferred = true
  typed : r.type = some .belongsTo ∨ r.type = some .belongsToMany

namespace Check

theorem added_of_inverseDraft {options : GraphOptions} {type : RelationType}
    {owner target : String} {foreignKey relatedKey localKey pivot : Option String} {r : Relation}
    (kind : type = .belongsTo ∨ type = .belongsToMany)
    (built : (inverseDraft options type owner target foreignKey relatedKey localKey pivot).build =
      .ok r) : r.Added := by
  obtain ⟨type', owner', target', ends, rfl⟩ := Draft.build_eq_ok.1 built
  obtain ⟨typed, -, -, -⟩ := Draft.ends_eq_ok.1 ends
  refine ⟨rfl, ?_⟩
  cases typed
  exact kind.imp (congrArg some) (congrArg some)

/-- The relation by which the rows of an entity say that they belong to those that have them by
    `r`. -/
def belongsBack (options : GraphOptions) (owner target : String) (r : Relation) : Relation where
  type := some .belongsTo
  owner := owner
  target := some target
  foreignKey := r.foreignKey
  localKey := Relation.filled? r.localKey <|> some options.defaultLocalKey
  name := Name.camel target
  inferred := true

/-- The relation that leads back through the pivot table of `r`: with the keys of `r` swapped, and
    the ones that the names give where `r` has none. -/
def pairsBack (options : GraphOptions) (owner target : String) (r : Relation) : Relation where
  type := some .belongsToMany
  owner := owner
  target := some target
  foreignKey := Relation.filled? r.relatedKey <|> some (Name.snake owner ++ "_id")
  localKey := Relation.filled? r.localKey <|> some options.defaultLocalKey
  relatedKey := Relation.filled? r.foreignKey <|> some (Name.snake target ++ "_id")
  name := Name.plural (Name.camel target)
  pivotTable := r.pivotTable
  inferred := true

section
variable {options : GraphOptions} {owner target : String} (ownerNamed : owner ≠ "")
  (ownerTrimmed : Text.Trimmed owner) (targetNamed : target ≠ "")
  (targetTrimmed : Text.Trimmed target)
include ownerNamed ownerTrimmed targetNamed targetTrimmed

private theorem ends_inverseDraft (type : RelationType)
    (foreignKey relatedKey localKey pivot : Option String) :
    (inverseDraft options type owner target foreignKey relatedKey localKey pivot).ends =
      .ok (type, owner, target) := by
  refine Draft.ends_eq_ok.2 ⟨rfl, ?_, ?_, fun _ => targetNamed⟩
  · simp only [inverseDraft, Draft.withOwner, Draft.withTarget, Option.map_some]
    rw [ownerTrimmed, Relation.filled?_some ownerNamed]
  · simp only [inverseDraft, Draft.withTarget, Option.map_some]
    rw [targetTrimmed, Relation.filled?_some targetNamed, Option.getD_some]

theorem build_belongsBack {r : Relation} {key : String}
    (keyed : Relation.filled? r.foreignKey = some key) :
    (inverseDraft options .belongsTo owner target (some key) none r.localKey none).build =
      .ok (belongsBack options owner target r) := by
  obtain ⟨given, filled⟩ := Relation.filled?_eq_some.1 keyed
  refine Draft.build_eq_ok.2 ⟨.belongsTo, owner, target, ?_, ?_⟩
  · exact ends_inverseDraft ownerNamed ownerTrimmed targetNamed targetTrimmed _ _ _ _ _
  · simp [Draft.fill, inverseDraft, Draft.withOwner, Draft.withTarget, belongsBack, given,
      Relation.filled?_some filled, Relation.filled?_some targetNamed, Convention.morphName?,
      Convention.relatedKey?, Convention.relationName, RelationType.isPolymorphic,
      RelationType.isToMany, RelationType.requiresPivot]

theorem build_pairsBack {r : Relation} {pivot : String}
    (tabled : Relation.filled? r.pivotTable = some pivot) :
    (inverseDraft options .belongsToMany owner target r.relatedKey r.foreignKey r.localKey
      (some pivot)).build = .ok (pairsBack options owner target r) := by
  obtain ⟨given, filled⟩ := Relation.filled?_eq_some.1 tabled
  refine Draft.build_eq_ok.2 ⟨.belongsToMany, owner, target, ?_, ?_⟩
  · exact ends_inverseDraft ownerNamed ownerTrimmed targetNamed targetTrimmed _ _ _ _ _
  · simp [Draft.fill, inverseDraft, Draft.withOwner, Draft.withTarget, pairsBack, given,
      Relation.filled?_some filled, Relation.filled?_some targetNamed, Convention.morphName?,
      Convention.relatedKey?, Convention.relationName, Convention.foreignKey,
      RelationType.isPolymorphic, RelationType.isToMany, RelationType.requiresPivot]

end

end Check

end EntityGraph
