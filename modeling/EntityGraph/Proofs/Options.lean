import EntityGraph.Proofs.Growth
import EntityGraph.Proofs.LocalKeys

/-!
Loading the same source with other options. Two graphs that differ in default local keys go through
their checks side by side: every decision is the same on both, so they end alike, and what the
options leave behind are the local keys and the flags of the fields that are added.
-/
namespace EntityGraph

open Results

/-- A field that was added with the flag `nullable'` in place of `nullable`, or any other one. -/
inductive Field.Twin (nullable nullable' : Bool) : Field → Field → Prop
  | same (f : Field) : Twin nullable nullable' f f
  | flags {f : Field} (flagged : f.nullable = nullable) (opposite : f.required = !nullable) :
      Twin nullable nullable' f { f with nullable := nullable', required := !nullable' }

structure Entity.Twin (o o' : GraphOptions) (e e' : Entity) : Prop where
  rest : e' = { e with fields := e'.fields, relations := e'.relations }
  fields : List.Forall₂ (Field.Twin o.foreignKeyNullable o'.foreignKeyNullable) e.fields e'.fields
  relations : List.Forall₂ (Relation.Rekeyed o.defaultLocalKey o'.defaultLocalKey) e.relations
    e'.relations

/-- Graphs on their way through two checks with other options. -/
structure Graph.Twin (o o' : GraphOptions) (g g' : Graph) : Prop where
  rest : g' = { g with options := g'.options, store := g'.store }
  options : g.options = o
  options' : g'.options = o'
  store : List.Forall₂ (Entity.Twin o o') g.store g'.store

structure Outcome.Twin (o o' : GraphOptions) (x x' : Outcome) : Prop where
  fault : x'.fault = x.fault
  graph : Graph.Twin o o' x.graph x'.graph

variable {o o' : GraphOptions}

/-! ## Relations -/

private theorem Relation.rekeyed_of_keys {key key' : String} {k k' : Option String} (r : Relation)
    (keys : k' = k ∨ k = some key ∧ k' = some key') :
    Relation.Rekeyed key key' { r with localKey := k } { r with localKey := k' } := by
  rcases keys with rfl | ⟨rfl, rfl⟩
  · exact .same _
  · exact .key (r := { r with localKey := some key }) rfl

section
variable {key key' : String} {r r' : Relation}

private theorem Relation.Rekeyed.type (twin : r.Rekeyed key key' r') : r'.type = r.type := by
  cases twin <;> rfl

private theorem Relation.Rekeyed.target (twin : r.Rekeyed key key' r') :
    r'.target = r.target := by
  cases twin <;> rfl

private theorem Relation.Rekeyed.name (twin : r.Rekeyed key key' r') : r'.name = r.name := by
  cases twin <;> rfl

private theorem Relation.Rekeyed.foreignKey (twin : r.Rekeyed key key' r') :
    r'.foreignKey = r.foreignKey := by
  cases twin <;> rfl

private theorem Relation.Rekeyed.relatedKey (twin : r.Rekeyed key key' r') :
    r'.relatedKey = r.relatedKey := by
  cases twin <;> rfl

private theorem Relation.Rekeyed.pivotTable (twin : r.Rekeyed key key' r') :
    r'.pivotTable = r.pivotTable := by
  cases twin <;> rfl

/-- A key that is made from a given one or from the default. -/
private theorem Relation.Rekeyed.filled (twin : r.Rekeyed key key' r') :
    (filled? r'.localKey <|> some key') = (filled? r.localKey <|> some key) ∨
      (filled? r.localKey <|> some key) = some key ∧
        (filled? r'.localKey <|> some key') = some key' := by
  have own : ∀ k : String, (filled? (some k) <|> some k) = some k := by
    intro k
    by_cases unset : k = ""
    · rw [unset]
      rfl
    · rw [filled?_some unset]
      rfl
  cases twin with
  | same =>
    cases filled? r.localKey with
    | none => exact .inr ⟨rfl, rfl⟩
    | some k => exact .inl rfl
  | key keyed =>
    rw [keyed]
    exact .inr ⟨own key, own key'⟩

end

/-! ## Entities -/

private theorem any_of_twins {α : Type} {R : α → α → Prop} {p : α → Bool} {xs xs' : List α}
    (twins : List.Forall₂ R xs xs') (same : ∀ x x', R x x' → p x' = p x) :
    xs'.any p = xs.any p := by
  induction twins with
  | nil => rfl
  | cons first _ ih => rw [List.any_cons, List.any_cons, same _ _ first, ih]

namespace Check

section
variable {n n' : Bool} {fs fs' : List Field} (twins : List.Forall₂ (Field.Twin n n') fs fs')
include twins

private theorem fieldFault?_twin (entity : String) (position : Nat) :
    fieldFault? entity position fs' = fieldFault? entity position fs := by
  induction twins generalizing position with
  | nil => rfl
  | cons first _ ih =>
    rw [fieldFault?, fieldFault?, ih]
    cases first <;> rfl

private theorem referTo_twin (key target : String) :
    List.Forall₂ (Field.Twin n n') (referTo key target fs) (referTo key target fs') := by
  induction twins with
  | nil => exact .nil
  | @cons f f' rest rest' first others ih =>
    have name : f'.name = f.name := by cases first <;> rfl
    have refers : f'.belongsTo = f.belongsTo := by cases first <;> rfl
    rw [referTo, referTo, name, refers]
    split
    · refine .cons ?_ others
      split
      · cases first with
        | same => exact .same _
        | flags flagged opposite =>
          exact .flags (f := { f with belongsTo := some target }) flagged opposite
      · exact first
    · exact .cons first ih

end

private theorem typeFault?_twin {key key' : String} {rs rs' : List Relation}
    (twins : List.Forall₂ (Relation.Rekeyed key key') rs rs') (entity : String) (position : Nat) :
    typeFault? entity position rs' = typeFault? entity position rs := by
  induction twins generalizing position with
  | nil => rfl
  | cons first _ ih =>
    rw [typeFault?, typeFault?, ih, relationLabel, relationLabel, first.type, first.name]

section
variable {e e' : Entity} (twin : Entity.Twin o o' e e')
include twin

private theorem withKeyField_twin (key target : String) :
    Entity.Twin o o' (withKeyField o.foreignKeyNullable key target e)
      (withKeyField o'.foreignKeyNullable key target e') := by
  have present : e'.hasField key = e.hasField key :=
    any_of_twins twin.fields fun f f' first => by cases first <;> rfl
  rw [withKeyField, withKeyField, present]
  split
  · refine ⟨?_, referTo_twin twin.fields key target, twin.relations⟩
    rw [twin.rest]
  · refine ⟨?_, ?_, twin.relations⟩
    · rw [twin.rest]
      rfl
    · refine List.rel_append twin.fields (.cons ?_ .nil)
      exact .flags (f := keyField o.foreignKeyNullable key target) rfl rfl

private theorem leadsTo_twin (types : List RelationType) (name : String) :
    leadsTo e' types name = leadsTo e types name := by
  rw [leadsTo, leadsTo, Entity.relationsOfType, Entity.relationsOfType, List.any_filter,
    List.any_filter]
  refine any_of_twins twin.relations fun r r' first => ?_
  rw [Relation.pointsTo, Relation.pointsTo, first.type, first.target]

private theorem leadsThrough_twin (pivot name : String) :
    leadsThrough e' pivot name = leadsThrough e pivot name := by
  rw [leadsThrough, leadsThrough, Entity.relationsOfType, Entity.relationsOfType, List.any_filter,
    List.any_filter]
  refine any_of_twins twin.relations fun r r' first => ?_
  rw [Relation.pointsTo, Relation.pointsTo, first.type, first.target, first.pivotTable]

private theorem entityFault?_twin (seen : List String) (place : Nat) :
    entityFault? seen place e' = entityFault? seen place e := by
  have name : e'.name = e.name := by rw [twin.rest]
  have fieldless : e'.fields.isEmpty = e.fields.isEmpty := by
    have same := twin.fields.length_eq
    rw [Bool.eq_iff_iff, List.isEmpty_iff_length_eq_zero, List.isEmpty_iff_length_eq_zero, same]
  rw [entityFault?, entityFault?, name, fieldless, fieldFault?_twin twin.fields,
    typeFault?_twin twin.relations]

end

/-! ## Steps -/

variable {g g' : Graph}

private theorem entity_twin (twin : Graph.Twin o o' g g') (place : Nat) :
    (g.store[place]? = none ∧ g'.store[place]? = none) ∨
      ∃ e e', g.store[place]? = some e ∧ g'.store[place]? = some e' ∧ Entity.Twin o o' e e' := by
  have same := twin.store.length_eq
  by_cases inside : place < g.store.length
  · have inside' : place < g'.store.length := by omega
    exact .inr ⟨_, _, List.getElem?_eq_getElem inside, List.getElem?_eq_getElem inside',
      twin.store.get inside inside'⟩
  · exact .inl ⟨List.getElem?_eq_none (by omega), List.getElem?_eq_none (by omega)⟩

private theorem name_twin (twin : Graph.Twin o o' g g') (place : Nat) :
    (g'.store[place]?).map Entity.name = (g.store[place]?).map Entity.name := by
  rcases entity_twin twin place with ⟨absent, absent'⟩ | ⟨e, e', found, found', alike⟩
  · rw [absent, absent']
  · rw [found, found', Option.map_some, Option.map_some, alike.rest]

private theorem order_twin (twin : Graph.Twin o o' g g') : g'.order = g.order := by
  rw [twin.rest]

private theorem index_twin (twin : Graph.Twin o o' g g') : g'.index = g.index := by
  rw [twin.rest]

private theorem locate?_twin (twin : Graph.Twin o o' g g') (name : String) :
    g'.locate? name = g.locate? name :=
  Graph.locate?_congr (order_twin twin) (name_twin twin) (index_twin twin) name

private theorem clean_twin (twin : Graph.Twin o o' g g') :
    Outcome.Twin o o' (.clean g) (.clean g') :=
  ⟨rfl, twin⟩

private theorem failed_twin (twin : Graph.Twin o o' g g') (f : CheckFault) :
    Outcome.Twin o o' (.failed g f) (.failed g' f) :=
  ⟨rfl, twin⟩

private theorem andThen_twin {x x' : Outcome} {next next' : Graph → Outcome}
    (first : Outcome.Twin o o' x x')
    (later : ∀ g g', Graph.Twin o o' g g' → Outcome.Twin o o' (next g) (next' g')) :
    Outcome.Twin o o' (x.andThen next) (x'.andThen next') := by
  rw [Outcome.andThen, Outcome.andThen, first.fault]
  split
  · exact later _ _ first.graph
  · exact first

private theorem modify_twins {α : Type} {R : α → α → Prop} {f f' : α → α} {xs xs' : List α}
    (twins : List.Forall₂ R xs xs') (place : Nat) (each : ∀ x x', R x x' → R (f x) (f' x')) :
    List.Forall₂ R (xs.modify place f) (xs'.modify place f') := by
  induction twins generalizing place with
  | nil => cases place <;> exact .nil
  | cons first others ih =>
    cases place with
    | zero => exact .cons (each _ _ first) others
    | succ place => exact .cons first (ih place)

private theorem modifyEntity_twin {f f' : Entity → Entity} (twin : Graph.Twin o o' g g')
    (place : Nat) (each : ∀ e e', Entity.Twin o o' e e' → Entity.Twin o o' (f e) (f' e')) :
    Graph.Twin o o' (g.modifyEntity place f) (g'.modifyEntity place f') := by
  refine ⟨?_, twin.options, twin.options', ?_⟩
  · rw [Graph.modifyEntity, Graph.modifyEntity, twin.rest]
  · exact modify_twins twin.store place each

private theorem ends_congr {α : Type} {d d' : Draft α} (type : d'.type = d.type)
    (owner : d'.owner = d.owner) (target : d'.target = d.target) (name : d'.name = d.name) :
    d'.ends = d.ends := by
  rw [Draft.ends, Draft.ends, type, owner, target, name]

private theorem addInverse_twin (twin : Graph.Twin o o' g g') (place : Nat) (type : RelationType)
    (owner target : String) (foreignKey relatedKey pivot : Option String) {r r' : Relation}
    (rekeyed : r.Rekeyed o.defaultLocalKey o'.defaultLocalKey r') :
    Outcome.Twin o o'
      (addInverse g place (inverseDraft o type owner target foreignKey relatedKey r.localKey pivot))
      (addInverse g' place
        (inverseDraft o' type owner target foreignKey relatedKey r'.localKey pivot)) := by
  -- The ends of the draft, and so whether it can be built, do not depend on keys.
  have ends : (inverseDraft o' type owner target foreignKey relatedKey r'.localKey pivot).ends =
      (inverseDraft o type owner target foreignKey relatedKey r.localKey pivot).ends := by
    simp only [inverseDraft, Draft.withOwner, Draft.withTarget]
    exact ends_congr rfl rfl rfl rfl
  rw [addInverse, addInverse, Draft.build, Draft.build, ends]
  cases (inverseDraft o type owner target foreignKey relatedKey r.localKey pivot).ends with
  | error f => exact failed_twin twin _
  | ok found =>
    refine clean_twin (modifyEntity_twin twin place fun e e' alike => ?_)
    refine ⟨?_, alike.fields, List.rel_append alike.relations (.cons ?_ .nil)⟩
    · rw [alike.rest]
      rfl
    · exact Relation.rekeyed_of_keys (Draft.fill _ _ _ _) rekeyed.filled

section
variable {v : Visit} {r' : Relation}
  (rekeyed : v.relation.Rekeyed o.defaultLocalKey o'.defaultLocalKey r')
include rekeyed

private theorem checkBelongsTo_twin {t t' : Entity} (twin : Graph.Twin o o' g g')
    (target : Entity.Twin o o' t t') :
    Outcome.Twin o o' (checkBelongsTo v g t) (checkBelongsTo { v with relation := r' } g' t') := by
  have name : t'.name = t.name := by rw [target.rest]
  unfold checkBelongsTo
  rw [rekeyed.foreignKey]
  split
  · exact failed_twin twin _
  · rename_i key _
    rw [leadsTo_twin target, name, twin.options, twin.options']
    split
    · exact clean_twin (modifyEntity_twin twin _ fun e e' alike => withKeyField_twin alike key _)
    · exact failed_twin twin _

private theorem checkHas_twin {t t' : Entity} (type : RelationType) (place : Nat)
    (twin : Graph.Twin o o' g g') (target : Entity.Twin o o' t t') :
    Outcome.Twin o o' (checkHas type v g place t)
      (checkHas type { v with relation := r' } g' place t') := by
  have name : t'.name = t.name := by rw [target.rest]
  unfold checkHas
  rw [rekeyed.foreignKey]
  split
  · exact failed_twin twin _
  · rename_i key _
    rw [leadsTo_twin target, name, twin.options, twin.options']
    have keyed := modifyEntity_twin twin place fun e e' alike =>
      withKeyField_twin alike key v.entity
    dsimp only
    split
    · exact clean_twin keyed
    · rw [keyed.options, keyed.options']
      exact addInverse_twin keyed place .belongsTo t.name v.entity (some key) none none rekeyed

private theorem checkBelongsToMany_twin {t t' : Entity} (place : Nat)
    (twin : Graph.Twin o o' g g') (target : Entity.Twin o o' t t') :
    Outcome.Twin o o' (checkBelongsToMany v g place t)
      (checkBelongsToMany { v with relation := r' } g' place t') := by
  have name : t'.name = t.name := by rw [target.rest]
  unfold checkBelongsToMany
  rw [rekeyed.pivotTable]
  split
  · exact failed_twin twin _
  · rename_i pivot _
    rw [leadsThrough_twin target, name, twin.options, twin.options', rekeyed.relatedKey,
      rekeyed.foreignKey]
    split
    · exact clean_twin twin
    · exact addInverse_twin twin place .belongsToMany t.name v.entity _ _ (some pivot) rekeyed

private theorem checkWithTarget_twin {t t' : Entity} (type : RelationType) (place : Nat)
    (twin : Graph.Twin o o' g g') (target : Entity.Twin o o' t t') :
    Outcome.Twin o o' (checkWithTarget type v g place t)
      (checkWithTarget type { v with relation := r' } g' place t') := by
  cases type with
  | belongsTo => exact checkBelongsTo_twin rekeyed twin target
  | hasOne => exact checkHas_twin rekeyed .hasOne place twin target
  | hasMany => exact checkHas_twin rekeyed .hasMany place twin target
  | belongsToMany => exact checkBelongsToMany_twin rekeyed place twin target
  | _ => exact clean_twin twin

private theorem checkRelation_twin (twin : Graph.Twin o o' g g') :
    Outcome.Twin o o' (checkRelation v g) (checkRelation { v with relation := r' } g') := by
  unfold checkRelation
  rw [rekeyed.type, rekeyed.target]
  split
  · exact failed_twin twin _
  · rename_i type _
    split
    · split
      · exact failed_twin twin _
      · rename_i name _
        rw [locate?_twin twin]
        split
        · exact failed_twin twin _
        · rename_i place _
          rcases entity_twin twin place with ⟨absent, absent'⟩ | ⟨t, t', found, found', target⟩
          · rw [absent, absent']
            exact failed_twin twin _
          · rw [found, found']
            exact checkWithTarget_twin rekeyed type place twin target
    · exact clean_twin twin

end

/-! ## Runs -/

private theorem checkRelations_twin {rs rs' : List Relation} (place : Nat) (entity : String)
    (position : Nat)
    (rekeyed : List.Forall₂ (Relation.Rekeyed o.defaultLocalKey o'.defaultLocalKey) rs rs')
    (twin : Graph.Twin o o' g g') :
    Outcome.Twin o o' (checkRelations place entity position rs g)
      (checkRelations place entity position rs' g') := by
  induction rekeyed generalizing position g g' with
  | nil => exact clean_twin twin
  | @cons r r' rest rest' first _ ih =>
    have label : relationLabel r' position = relationLabel r position := by
      rw [relationLabel, relationLabel, first.name]
    rw [checkRelations, checkRelations, label]
    apply andThen_twin (checkRelation_twin (v := ⟨place, entity, r, relationLabel r position⟩)
      first twin)
    intro g g' later
    exact ih (position + 1) later

private theorem checkEntities_twin (places : List Nat) (position : Nat) (seen : List String)
    (twin : Graph.Twin o o' g g') :
    Outcome.Twin o o' (checkEntities places position seen g)
      (checkEntities places position seen g') := by
  induction places generalizing position seen g g' with
  | nil => exact clean_twin twin
  | cons place rest ih =>
    rw [checkEntities, checkEntities]
    rcases entity_twin twin place with ⟨absent, absent'⟩ | ⟨e, e', found, found', alike⟩
    · rw [absent, absent']
      exact ih position seen twin
    · have name : e'.name = e.name := by rw [alike.rest]
      rw [found, found']
      dsimp only
      rw [name]
      refine andThen_twin ?_ fun g g' later => ih (position + 1) _ later
      rw [checkEntity, checkEntity, entityFault?_twin alike, name]
      split
      · exact failed_twin twin _
      · exact checkRelations_twin place e.name 0 alike.relations twin

private theorem freeze_twin (twin : Graph.Twin o o' g g') :
    Graph.Twin o o' g.freeze g'.freeze := by
  have named : g'.namedPlaces = g.namedPlaces :=
    Graph.namedPlaces_congr (order_twin twin) (name_twin twin)
  rw [Graph.freeze, Graph.freeze, index_twin twin]
  split
  · exact twin
  · refine ⟨?_, twin.options, twin.options', twin.store⟩
    rw [named, twin.rest]

end Check

/-- Graphs that differ in keys and options are checked to the same end. -/
theorem Graph.check_twin {g g' : Graph} (twin : Graph.Twin o o' g g') :
    Outcome.Twin o o' g.check g'.check := by
  have frozen := Check.freeze_twin twin
  rw [Graph.check, Graph.check, Check.order_twin frozen]
  exact Check.checkEntities_twin _ 0 [] frozen

/-! ## Declared fields -/

/-- Two entities that have been completed from one with so many declared fields. -/
structure Entity.Variant (o o' : GraphOptions) (declared : Nat) (e e' : Entity) : Prop where
  name : e'.name = e.name
  table : e'.table = e.table
  settings : e'.settings = e.settings
  relations : List.Forall₂ (Relation.Rekeyed o.defaultLocalKey o'.defaultLocalKey) e.relations
    e'.relations
  fields : ∃ kept added added', kept.length = declared ∧ e.fields = kept ++ added ∧
    e'.fields = kept ++ added' ∧
    List.Forall₂ (Field.Twin o.foreignKeyNullable o'.foreignKeyNullable) added added'

/-- Two graphs that have been completed from a declared one, with options `o` and `o'`. -/
structure Graph.Variant (o o' : GraphOptions) (declared g g' : Graph) : Prop where
  app : g'.app = g.app
  enums : g'.enums = g.enums
  index : g'.index = g.index
  options : g.options = o
  options' : g'.options = o'
  order : g.order = declared.order
  order' : g'.order = declared.order
  size : g.store.length = declared.store.length
  size' : g'.store.length = declared.store.length
  entities : ∀ (place : Nat) (d : Entity), declared.store[place]? = some d → ∃ e e',
    g.store[place]? = some e ∧ g'.store[place]? = some e' ∧
      Entity.Variant o o' d.fields.length e e'

private theorem Field.Grows.flags {names : List String} {f f' : Field} (grown : f.Grows names f') :
    f'.nullable = f.nullable ∧ f'.required = f.required := by
  rcases grown with rfl | ⟨-, _, -, rfl⟩ <;> exact ⟨rfl, rfl⟩

private theorem Field.Twin.eq_of_flags {n n' : Bool} {f f' : Field} (twin : f.Twin n n' f')
    (nullable : f'.nullable = f.nullable) (required : f'.required = f.required) : f' = f := by
  cases twin with
  | same => rfl
  | flags =>
    change n' = f.nullable at nullable
    change (!n') = f.required at required
    rw [required, nullable]

/-- A check never touches the flags of a declared field, so they are the same on both sides. -/
private theorem eq_of_twins {names names' : List String} {n n' : Bool}
    {declared kept kept' : List Field} (grown : List.Forall₂ (Field.Grows names) declared kept)
    (grown' : List.Forall₂ (Field.Grows names') declared kept')
    (twins : List.Forall₂ (Field.Twin n n') kept kept') : kept' = kept := by
  induction twins generalizing declared with
  | nil => rfl
  | @cons f f' rest rest' first _ ih =>
    cases grown with
    | cons grows others =>
      cases grown' with
      | cons grows' others' =>
        have same := first.eq_of_flags (grows'.flags.1.trans grows.flags.1.symm)
          (grows'.flags.2.trans grows.flags.2.symm)
        rw [same, ih others others']

private theorem Entity.Twin.variant {names names' : List String} {d d' e e' : Entity}
    (declared : d'.fields = d.fields) (grown : d.Grows names e) (grown' : d'.Grows names' e')
    (twin : Entity.Twin o o' e e') : Entity.Variant o o' d.fields.length e e' := by
  obtain ⟨kept, added, joined, grows, -⟩ := grown.fields
  obtain ⟨kept', added', joined', grows', -⟩ := grown'.fields
  rw [declared] at grows'
  have size : kept.length = kept'.length := grows.length_eq.symm.trans grows'.length_eq
  have fields := twin.fields
  rw [joined, joined'] at fields
  have front : List.Forall₂ (Field.Twin o.foreignKeyNullable o'.foreignKeyNullable) kept kept' := by
    have taken := List.forall₂_take kept.length fields
    rwa [List.take_left, size, List.take_left] at taken
  have back : List.Forall₂ (Field.Twin o.foreignKeyNullable o'.foreignKeyNullable) added
      added' := by
    have dropped := List.forall₂_drop kept.length fields
    rwa [List.drop_left, size, List.drop_left] at dropped
  rw [eq_of_twins grows grows' front] at joined'
  refine ⟨?_, ?_, ?_, twin.relations, kept, added, added', grows.length_eq.symm, joined, joined',
    back⟩
  all_goals rw [twin.rest]

/-- Twins with the same declared fields are checked to variants of what was declared. -/
private theorem Graph.Twin.variant {d d' : Graph} (twin : Graph.Twin o o' d d')
    (frozen : d.freeze = d) (frozen' : d'.freeze = d')
    (declared : List.Forall₂ (fun e e' : Entity => e'.fields = e.fields) d.store d'.store) :
    Graph.Variant o o' d d.check.graph d'.check.graph := by
  have grown := d.check_grows
  have grown' := d'.check_grows
  have checked := (Graph.check_twin twin).graph
  rw [frozen] at grown
  rw [frozen'] at grown'
  have size := grown.store.length_eq
  have size' := grown'.store.length_eq
  refine ⟨?_, ?_, Check.index_twin checked, checked.options, checked.options', grown.order,
    grown'.order.trans (Check.order_twin twin), size.symm,
    (twin.store.length_eq.trans size').symm, ?_⟩
  · rw [checked.rest]
  · rw [checked.rest]
  · intro place e found
    obtain ⟨e1, found1, grows⟩ := grown.entity found
    obtain ⟨inside, rfl⟩ := List.getElem?_eq_some_iff.1 found
    have inside' : place < d'.store.length := declared.length_eq ▸ inside
    have fields : d'.store[place].fields = d.store[place].fields :=
      declared.get inside inside'
    obtain ⟨e1', found1', grows'⟩ := grown'.entity (List.getElem?_eq_getElem inside')
    have alike : Entity.Twin o o' e1 e1' := by
      obtain ⟨here, rfl⟩ := List.getElem?_eq_some_iff.1 found1
      obtain ⟨here', rfl⟩ := List.getElem?_eq_some_iff.1 found1'
      exact checked.store.get here here'
    exact ⟨e1, e1', found1, found1', alike.variant fields grows grows'⟩

private theorem eq_of_related {α : Type} {R : α → α → Prop} {xs xs' : List α}
    (related : List.Forall₂ R xs xs') (same : ∀ x x', R x x' → x' = x) : xs' = xs := by
  induction related with
  | nil => rfl
  | cons first _ ih => rw [same _ _ first, ih]

/-- Options with the same default local key and the same flag leave the same graph. -/
private theorem Graph.Twin.eq_of_options {g g' : Graph} (twin : Graph.Twin o o' g g')
    (key : o'.defaultLocalKey = o.defaultLocalKey)
    (nullable : o'.foreignKeyNullable = o.foreignKeyNullable) : g' = { g with options := o' } := by
  have fields : ∀ f f', Field.Twin o.foreignKeyNullable o'.foreignKeyNullable f f' → f' = f := by
    rintro f f' (_ | ⟨flagged, opposite⟩)
    · rfl
    · rw [nullable, ← opposite, ← flagged]
  have relations : ∀ r r', Relation.Rekeyed o.defaultLocalKey o'.defaultLocalKey r r' → r' = r := by
    rintro r r' (_ | keyed)
    · rfl
    · rw [key, ← keyed]
  have entities : ∀ e e', Entity.Twin o o' e e' → e' = e := by
    intro e e' alike
    rw [alike.rest, eq_of_related alike.fields fields, eq_of_related alike.relations relations]
  rw [twin.rest, twin.options', eq_of_related twin.store entities]

/-! ## Loading -/

private theorem Contents.Rekeyed.twin {c c' : Contents}
    (rekeyed : Contents.Rekeyed o.defaultLocalKey o'.defaultLocalKey c c') :
    Graph.Twin o o' (c.toGraph o) (c'.toGraph o') := by
  refine Check.freeze_twin ⟨?_, rfl, rfl, ?_⟩
  · rw [rekeyed.app, rekeyed.enums, rekeyed.entities.length_eq]
  · refine rekeyed.entities.imp fun e e' alike => ⟨?_, ?_, alike.relations⟩
    · rw [alike.rest]
    · rw [alike.rest]
      exact List.forall₂_same.2 fun f _ => .same f

private theorem load_of_contents {dialect : Schema.Dialect} {o : GraphOptions}
    {kind : SourceKind} {s : Source} {c : Contents} {warnings : List Schema.Warning}
    (read : s.contents dialect o.defaultLocalKey kind = .ok (c, warnings)) :
    s.build dialect o kind = .ok (c.toGraph o, warnings) ∧
      s.load dialect o kind = match (c.toGraph o).check.fault with
        | none => .ok ((c.toGraph o).check.graph, warnings)
        | some f => .error (.ofCheck f) := by
  have built : s.build dialect o kind = .ok (c.toGraph o, warnings) := by
    rw [Source.build, read]
    rfl
  refine ⟨built, ?_⟩
  rw [Source.load, built, ok_bind]
  dsimp only
  cases (c.toGraph o).check with
  | mk g fault => cases fault <;> rfl

/-- What other options change about loading a source: nothing if it is refused, and otherwise the
    keys and flags that the options are there for. -/
theorem Loader.load_options (l : Loader) (o o' : GraphOptions) (source : Option Source)
    (kind : Value) :
    (∃ failure, { l with options := o }.load source kind = .error failure ∧
      { l with options := o' }.load source kind = .error failure) ∨
    ∃ declared g g' warnings,
      { l with options := o }.build source kind = .ok (declared, warnings) ∧
      { l with options := o }.load source kind = .ok (g, warnings) ∧
      { l with options := o' }.load source kind = .ok (g', warnings) ∧
      Graph.Variant o o' declared g g' ∧
      (o'.defaultLocalKey = o.defaultLocalKey → o'.foreignKeyNullable = o.foreignKeyNullable →
        g' = { g with options := o' }) := by
  have chosen : { l with options := o' }.choose source kind =
      { l with options := o }.choose source kind := rfl
  rw [Loader.load, Loader.load, Loader.build, chosen]
  cases { l with options := o }.choose source kind with
  | error failure => exact .inl ⟨failure, rfl, rfl⟩
  | ok found =>
    obtain ⟨s, k⟩ := found
    simp only [ok_bind]
    have contents := l.related_contents o o' k s
    generalize read : s.contents { l with options := o }.dialect o.defaultLocalKey k = x
      at contents
    generalize read' : s.contents { l with options := o' }.dialect o'.defaultLocalKey k = x'
      at contents
    cases contents with
    | error failure =>
      refine .inl ⟨failure, ?_, ?_⟩
      · rw [Source.load, Source.build, read]
        rfl
      · rw [Source.load, Source.build, read']
        rfl
    | @ok x x' related =>
      obtain ⟨c, warnings⟩ := x
      obtain ⟨c', warnings'⟩ := x'
      obtain ⟨rekeyed, rfl⟩ := related
      obtain ⟨built, loaded⟩ := load_of_contents read
      obtain ⟨-, loaded'⟩ := load_of_contents read'
      have twin := rekeyed.twin
      have checked := Graph.check_twin twin
      rw [checked.fault] at loaded'
      cases fault : (c.toGraph o).check.fault with
      | some f =>
        rw [fault] at loaded loaded'
        exact .inl ⟨_, loaded, loaded'⟩
      | none =>
        rw [fault] at loaded loaded'
        refine .inr ⟨_, _, _, _, built, loaded, loaded', ?_, ?_⟩
        · refine twin.variant rfl rfl (rekeyed.entities.imp fun e e' alike => ?_)
          rw [alike.rest]
        · exact checked.graph.eq_of_options

end EntityGraph
