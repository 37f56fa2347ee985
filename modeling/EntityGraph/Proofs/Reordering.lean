import EntityGraph.Proofs.Acceptance
import EntityGraph.Proofs.Additions
import Mathlib.Data.List.Find

/-!
The order of the entities. A check visits entities in order, and what it adds to one of them may be
there or not when another one is visited. Nevertheless neither whether it passes nor what it adds
hangs on the order, except for which of several claims a key field refers to: acceptance looks at
the graph before the check, and of each way back there is one owner that it can lead to.
-/
namespace EntityGraph

/-- A graph with its entities in another order, frozen again. -/
def Graph.reordered (g : Graph) (entities : List Entity) : Graph :=
  Graph.freeze { app := g.app, store := entities, enums := g.enums, options := g.options }

theorem Graph.entities_reordered (g : Graph) (entities : List Entity) :
    (g.reordered entities).entities = entities :=
  entities_of_order rfl

/-- A field apart from the entity that it refers to. -/
def Field.unreferred (f : Field) : Field :=
  { f with belongsTo := none }

/-- Two entities agree: they differ at most in the order of fields and relations, and in what
    fields refer to. -/
structure Entity.Agrees (e e' : Entity) : Prop where
  name : e'.name = e.name
  table : e'.table = e.table
  settings : e'.settings = e.settings
  fieldNames : ∀ name, name ∈ e'.fieldNames ↔ name ∈ e.fieldNames
  fields : (e'.fields.map Field.unreferred).Perm (e.fields.map Field.unreferred)
  relations : e'.relations.Perm e.relations

/-- Two graphs agree: they have entities of the same names, each name once, and entities of the same
    name agree. -/
structure Graph.Agrees (g g' : Graph) : Prop where
  app : g'.app = g.app
  enums : g'.enums = g.enums
  options : g'.options = g.options
  distinct : g.entityNames.Nodup
  names : g'.entityNames.Perm g.entityNames
  entities : ∀ e ∈ g.entities, ∀ e' ∈ g'.entities, e'.name = e.name → e.Agrees e'

/-- What a graph has to say to pass its check if all its entities have fields. The order of the
    entities has no part in it. -/
structure Graph.Acceptable (g : Graph) : Prop where
  distinct : g.entityNames.Nodup
  named : ∀ e ∈ g.entities, e.name ≠ ""
  complete : ∀ e ∈ g.entities, ∀ f ∈ e.fields, f.name ≠ "" ∧ f.type ≠ none
  relations : ∀ e ∈ g.entities, ∀ r ∈ e.relations, g.AcceptsRelation e.name r

namespace Check

/-! ## Searches -/

/-- A search that only one member can answer has the same answer in every order. -/
private theorem findSome?_of_perm {α β : Type} {f : α → Option β} {xs ys : List α}
    (permuted : xs.Perm ys)
    (single : ∀ x ∈ xs, ∀ y ∈ xs, f x ≠ none → f y ≠ none → x = y) :
    xs.findSome? f = ys.findSome? f := by
  induction permuted with
  | nil => rfl
  | cons x _ ih =>
    have later := ih fun y inside z inside' =>
      single y (List.mem_cons_of_mem _ inside) z (List.mem_cons_of_mem _ inside')
    rw [List.findSome?_cons, List.findSome?_cons, later]
  | swap x y rest =>
    simp only [List.findSome?_cons]
    cases first : f y with
    | none => rfl
    | some b =>
      cases second : f x with
      | none => rfl
      | some c =>
        have same : y = x := single y (by simp) x (by simp) (by simp [first]) (by simp [second])
        rw [same, second] at first
        exact first.symm
  | trans before _ ih ih' =>
    refine (ih single).trans (ih' fun x inside y inside' => ?_)
    exact single x (before.mem_iff.2 inside) y (before.mem_iff.2 inside')

/-- Lists in which the first member of each key is the same have the same members to offer. -/
private theorem gained_perm {α κ : Type} [DecidableEq α] [BEq κ] [LawfulBEq κ] {key : α → κ}
    {xs ys ys' gained gained' : List α} (lacked : Lacked key xs ys gained)
    (lacked' : Lacked key xs ys' gained')
    (first : ∀ k, ys'.find? (key · == k) = ys.find? (key · == k)) : gained'.Perm gained := by
  refine List.perm_iff_count.2 fun a => ?_
  have alike : ∀ zs : List α, zs.count a = (zs.filter (key · == key a)).count a :=
    fun zs => (List.count_filter (by simp)).symm
  rw [alike gained', alike gained, lacked'.filter, lacked.filter, first]

/-! ## Acceptance -/

section
variable {g g' : Graph}

/-- A check passes a graph all of whose entities have fields exactly if it is acceptable. -/
theorem passes_iff_acceptable (fresh : g.Fresh) (filled : ∀ e ∈ g.entities, e.fields ≠ []) :
    g.check.fault = none ↔ g.Acceptable := by
  constructor
  · intro passed
    have accepted : ∀ e ∈ g.entities, ∃ place, g.Accepts place e := by
      intro e member
      obtain ⟨place, found⟩ := List.mem_iff_getElem?.1 (fresh.entities_eq ▸ member)
      exact ⟨place, accepts_of_passed fresh passed found⟩
    refine ⟨(fresh.run_of_passed passed).2.nodup fresh, ?_, ?_, ?_⟩
    · intro e member
      obtain ⟨_, accepts⟩ := accepted e member
      exact accepts.named
    · intro e member
      obtain ⟨_, accepts⟩ := accepted e member
      exact accepts.complete
    · intro e member
      obtain ⟨_, accepts⟩ := accepted e member
      exact accepts.relations
  · intro accepted
    cases failed : g.check.fault with
    | none => rfl
    | some f =>
      obtain ⟨place, e, found, refused, -⟩ := fresh.ends.refused fresh failed
      have member : e ∈ g.entities := fresh.entities_eq ▸ List.mem_of_getElem? found
      refine absurd ⟨accepted.named e member, ?_, .inl (filled e member),
        accepted.complete e member, accepted.relations e member⟩ refused
      intro earlier before same
      have unseen := notMem_take_of_nodup fresh accepted.distinct found
      rw [Graph.entityNames, ← List.map_take, same] at unseen
      exact unseen (List.mem_map_of_mem before)

/-- The entities of a graph whose names are distinct are told apart by them. -/
private theorem eq_of_name (distinct : g.entityNames.Nodup) {e t : Entity}
    (member : e ∈ g.entities) (inside : t ∈ g.entities) (same : e.name = t.name) : e = t :=
  List.inj_on_of_nodup_map distinct member inside same

private theorem acceptsRelation_of_perm (distinct : g.entityNames.Nodup)
    (permuted : g.entities.Perm g'.entities) {entity : String} {r : Relation}
    (accepted : g.AcceptsRelation entity r) : g'.AcceptsRelation entity r := by
  have first : g'.entities.find? (fun t => r.target == some t.name) =
      g.entities.find? (fun t => r.target == some t.name) := by
    refine (List.find?_eq_find?_of_perm permuted ?_).symm
    rintro e ⟨member, leads⟩ t ⟨inside, leads'⟩
    have same : some e.name = some t.name := (beq_iff_eq.1 leads).symm.trans (beq_iff_eq.1 leads')
    exact eq_of_name distinct member inside (Option.some.inj same)
  refine ⟨accepted.typed, ?_, ?_, accepted.has, accepted.pairs⟩
  · intro needed
    obtain ⟨t, member, named, leads⟩ := accepted.target needed
    exact ⟨t, permuted.mem_iff.1 member, named, leads⟩
  · intro belongs
    rw [first]
    exact accepted.belongs belongs

theorem acceptable_of_perm (permuted : g.entities.Perm g'.entities) (accepted : g.Acceptable) :
    g'.Acceptable := by
  refine ⟨(permuted.map Entity.name).nodup_iff.1 accepted.distinct, ?_, ?_, ?_⟩
  · intro e member
    exact accepted.named e (permuted.mem_iff.2 member)
  · intro e member
    exact accepted.complete e (permuted.mem_iff.2 member)
  · intro e member r owned
    exact acceptsRelation_of_perm accepted.distinct permuted
      (accepted.relations e (permuted.mem_iff.2 member) r owned)

/-! ## Additions -/

/-- What a check that passes leaves of an entity, given all that the graph asks for. -/
theorem effect_of_passed (fresh : g.Fresh) (passed : g.check.fault = none) {place : Nat}
    {e e' : Entity} (found : g.store[place]? = some e)
    (found' : g.check.graph.store[place]? = some e') :
    e'.relations = gather way e.relations (backs g e) ∧
      e'.fields = claimFields g.options.foreignKeyNullable e.fields (g.claims e) := by
  obtain ⟨run, sound⟩ := fresh.run_of_passed passed
  obtain ⟨relations, fields⟩ := run.effect fresh (sound.nodup fresh) found found'
  rw [filterMap_visitsBefore, List.take_length, ← fresh.entities_eq] at relations fields
  exact ⟨relations, fields⟩

/-- Only one owner can be led back to by a way, so of each way the first one is the same. -/
private theorem find?_backs_of_perm (distinct : g.entityNames.Nodup)
    (permuted : g.entities.Perm g'.entities) (options : g'.options = g.options) (e : Entity)
    (k : Option RelationType × Option String × Option String) :
    (backs g' e).find? (way · == k) = (backs g e).find? (way · == k) := by
  rw [backs, backs, options, List.find?_flatMap, List.find?_flatMap]
  refine (findSome?_of_perm permuted fun owner member other inside leads leads' => ?_).symm
  have leading : ∀ owner : Entity, (owner.relations.filterMap
      (back? g.options e.name owner.name)).find? (way · == k) ≠ none →
        k.2.1 = some owner.name := by
    intro owner leads
    obtain ⟨back, made⟩ := Option.ne_none_iff_exists'.1 leads
    obtain ⟨r, -, wanted⟩ := List.mem_filterMap.1 (List.mem_of_find?_eq_some made)
    have alike : way back = k := by simpa using List.find?_some made
    rw [← alike]
    exact target_of_back? wanted
  have same := (leading owner leads).symm.trans (leading other leads')
  exact eq_of_name distinct member inside (Option.some.inj same)

private theorem relations_perm (distinct : g.entityNames.Nodup)
    (permuted : g.entities.Perm g'.entities) (options : g'.options = g.options) (e : Entity) :
    (gather way e.relations (backs g' e)).Perm (gather way e.relations (backs g e)) := by
  obtain ⟨gained, same, lacked⟩ := exists_lacked way e.relations (backs g e)
  obtain ⟨gained', same', lacked'⟩ := exists_lacked way e.relations (backs g' e)
  rw [same, same']
  exact (gained_perm lacked lacked' (find?_backs_of_perm distinct permuted options e)).append_left _

private theorem unreferred_referFirst (claims : List (String × String)) (fields : List Field) :
    (referFirst claims fields).map Field.unreferred = fields.map Field.unreferred := by
  induction fields generalizing claims with
  | nil => rfl
  | cons f rest ih =>
    rw [referFirst, List.map_cons, List.map_cons, ih]
    rfl

private theorem lookup_isSome_of_perm {claims claims' : List (String × String)}
    (permuted : claims.Perm claims') (key : String) :
    (claims'.lookup key).isSome = (claims.lookup key).isSome := by
  rw [Bool.eq_iff_iff, List.lookup_isSome_iff, List.lookup_isSome_iff]
  simp only [permuted.mem_iff]

/-- What the fields that are added refer to is all that hangs on the order of the claims. -/
private theorem gainedFields_perm {nullable : Bool} {fields gained gained' : List Field}
    {claims claims' : List (String × String)} (permuted : claims.Perm claims')
    (filters : ∀ k, gained.filter (·.name == k) = if fields.any (·.name == k) then []
      else ((claims.lookup k).map (keyField nullable k)).toList)
    (filters' : ∀ k, gained'.filter (·.name == k) = if fields.any (·.name == k) then []
      else ((claims'.lookup k).map (keyField nullable k)).toList) :
    (gained'.map Field.unreferred).Perm (gained.map Field.unreferred) := by
  have counted : ∀ (fs : List Field) (k : String),
      (fs.map Field.name).count k = (fs.filter (·.name == k)).length := by
    intro fs k
    rw [List.count, List.countP_map, List.countP_eq_length_filter]
    rfl
  have names : (gained'.map Field.name).Perm (gained.map Field.name) := by
    refine List.perm_iff_count.2 fun k => ?_
    rw [counted, counted, filters, filters']
    have asked := lookup_isSome_of_perm permuted k
    cases fields.any (·.name == k) with
    | true => rfl
    | false => cases found : claims.lookup k <;> cases found' : claims'.lookup k <;> simp_all
  -- Apart from what it refers to, an added field follows from its name.
  have shaped : ∀ (fs : List Field) (asked : List (String × String)),
      (∀ k, fs.filter (·.name == k) = if fields.any (·.name == k) then []
        else ((asked.lookup k).map (keyField nullable k)).toList) →
      fs.map Field.unreferred =
        (fs.map Field.name).map fun k => (keyField nullable k "").unreferred := by
    intro fs asked same
    rw [List.map_map]
    refine List.map_congr_left fun f member => ?_
    have inside : f ∈ fs.filter (·.name == f.name) := List.mem_filter.2 ⟨member, by simp⟩
    rw [same] at inside
    split at inside
    · cases inside
    · obtain ⟨target, -, made⟩ := Option.map_eq_some_iff.1 (Option.mem_toList.1 inside)
      rw [← made]
      rfl
  rw [shaped gained claims filters, shaped gained' claims' filters']
  exact names.map _

private theorem fields_perm {nullable : Bool} {fields : List Field}
    {claims claims' : List (String × String)} (permuted : claims.Perm claims') :
    ((claimFields nullable fields claims').map Field.unreferred).Perm
      ((claimFields nullable fields claims).map Field.unreferred) := by
  obtain ⟨gained, same, filters⟩ := exists_claimFields nullable fields claims
  obtain ⟨gained', same', filters'⟩ := exists_claimFields nullable fields claims'
  rw [same, same', List.map_append, List.map_append, unreferred_referFirst, unreferred_referFirst]
  exact (gainedFields_perm permuted filters filters').append_left _

end

end Check

/-- A document about users and teams that have tasks by the same key. -/
def Document.tasks : Source :=
  let entity (name : String) (relations : List Value) : Value :=
    .mapping [(.text "name", .text name), (.text "relations", .list relations),
      (.text "fields", .list [.mapping [(.text "name", .text "id"), (.text "type", .text "id")]])]
  let tasks : Value := .mapping [(.text "type", .text "hasMany"), (.text "entity", .text "Task"),
    (.text "foreign_key", .text "owner_id")]
  .document [
    (.text "app", .mapping [(.text "name", .text "Tasks")]),
    (.text "entities", .list [entity "User" [tasks], entity "Team" [tasks], entity "Task" []])]

namespace Graph

theorem Fresh.reordered {g : Graph} (fresh : g.Fresh) {entities : List Entity}
    (permuted : entities.Perm g.entities) : (g.reordered entities).Fresh :=
  ⟨rfl, rfl, fun e member => fresh.trimmed e (fresh.entities_eq ▸ permuted.mem_iff.1 member)⟩

/-- Graphs that differ in the order of their entities are completed to graphs that agree. -/
private theorem agrees_of_passed {g g' : Graph} (fresh : g.Fresh) (fresh' : g'.Fresh)
    (permuted : g.entities.Perm g'.entities) (app : g'.app = g.app) (enums : g'.enums = g.enums)
    (options : g'.options = g.options) (passed : g.check.fault = none)
    (passed' : g'.check.fault = none) : g.check.graph.Agrees g'.check.graph := by
  obtain ⟨run, sound⟩ := fresh.run_of_passed passed
  obtain ⟨run', -⟩ := fresh'.run_of_passed passed'
  have distinct := sound.nodup fresh
  refine ⟨?_, ?_, ?_, ?_, ?_, ?_⟩
  · rw [run'.grows.app, run.grows.app, app]
  · rw [run'.grows.enums, run.grows.enums, enums]
  · rw [run'.grows.options, run.grows.options, options]
  · rw [run.grows.entityNames]
    exact distinct
  · rw [run'.grows.entityNames, run.grows.entityNames]
    exact (permuted.map Entity.name).symm
  · intro e1 member e1' member' same
    rw [(fresh.grow run.grows).entities_eq] at member
    rw [(fresh'.grow run'.grows).entities_eq] at member'
    obtain ⟨i, found1⟩ := List.mem_iff_getElem?.1 member
    obtain ⟨j, found1'⟩ := List.mem_iff_getElem?.1 member'
    obtain ⟨e, found, grows⟩ := run.grows.entity_before found1
    obtain ⟨e', found', grows'⟩ := run'.grows.entity_before found1'
    -- Both have grown from the same entity, the only one of that name.
    have here : e ∈ g.entities := fresh.entities_eq ▸ List.mem_of_getElem? found
    have there : e' ∈ g'.entities := fresh'.entities_eq ▸ List.mem_of_getElem? found'
    obtain rfl : e' = e := by
      refine Check.eq_of_name distinct (permuted.mem_iff.2 there) here ?_
      rw [← grows'.name, ← grows.name, same]
    obtain ⟨relations, fields⟩ := Check.effect_of_passed fresh passed found found1
    obtain ⟨relations', fields'⟩ := Check.effect_of_passed fresh' passed' found' found1'
    have claims : (g.claims e').Perm (g'.claims e') := permuted.flatMap_right _
    have kept : (e1'.fields.map Field.unreferred).Perm (e1.fields.map Field.unreferred) := by
      rw [fields, fields', options]
      exact Check.fields_perm claims
    refine ⟨same, by rw [grows'.table, grows.table], by rw [grows'.settings, grows.settings], ?_,
      kept, ?_⟩
    · intro name
      have unnamed : ∀ fs : List Field, (fs.map Field.unreferred).map Field.name =
          fs.map Field.name := by
        intro fs
        rw [List.map_map]
        rfl
      rw [Entity.fieldNames, Entity.fieldNames, ← unnamed, ← unnamed e1.fields]
      exact (kept.map Field.name).mem_iff
    · rw [relations, relations']
      exact Check.relations_perm distinct permuted options e'

/-- The order of the entities does not change what a check comes to: whether it passes, and up to
    the order of additions and what key fields refer to, the graph that it leaves. -/
theorem check_reordered {g : Graph} (built : g.Built) (filled : ∀ e ∈ g.entities, e.fields ≠ [])
    {entities : List Entity} (permuted : entities.Perm g.entities) :
    ((g.reordered entities).check.fault = none ↔ g.check.fault = none) ∧
      (g.check.fault = none → g.check.graph.Agrees (g.reordered entities).check.graph) := by
  have fresh := built.fresh
  have fresh' := fresh.reordered permuted
  rw [← g.entities_reordered entities] at permuted
  have filled' : ∀ e ∈ (g.reordered entities).entities, e.fields ≠ [] :=
    fun e member => filled e (permuted.mem_iff.1 member)
  have same : (g.reordered entities).check.fault = none ↔ g.check.fault = none := by
    rw [Check.passes_iff_acceptable fresh filled, Check.passes_iff_acceptable fresh' filled']
    exact ⟨Check.acceptable_of_perm permuted, Check.acceptable_of_perm permuted.symm⟩
  refine ⟨same, fun passed => ?_⟩
  exact agrees_of_passed fresh fresh' permuted.symm rfl rfl rfl passed (same.2 passed)

/-- The entities that the fields of the entity of a name refer to. -/
def references (g : Graph) (name : String) : List (Option String) :=
  ((g.getEntity? name).map fun e => e.fields.map Field.belongsTo).getD []

/-- Users and teams both have tasks by the same key; the one visited first is what it refers to. -/
theorem check_reordered_tasks : ∃ g warnings,
    Loader.build {} (some Document.tasks) (.text "json") = .ok (g, warnings) ∧
      (∀ e ∈ g.entities, e.fields ≠ []) ∧ g.check.fault = none ∧
      g.check.graph.references "Task" = [none, some "User"] ∧
      (g.reordered g.entities.reverse).check.graph.references "Task" = [none, some "Team"] ∧
      g.check.graph.Agrees (g.reordered g.entities.reverse).check.graph := by
  have passes : Loader.builds {} (some Document.tasks) (.text "json") (fun g =>
      g.entities.all (!·.fields.isEmpty) && g.check.fault == none &&
        g.check.graph.references "Task" == [none, some "User"] &&
        (g.reordered g.entities.reverse).check.graph.references "Task" ==
          [none, some "Team"]) = true := by
    decide +kernel
  obtain ⟨g, warnings, done, judged⟩ := Loader.exists_of_builds passes
  simp only [Bool.and_eq_true, List.all_eq_true, Bool.not_eq_true', List.isEmpty_eq_false_iff,
    beq_iff_eq] at judged
  obtain ⟨⟨⟨filled, clean⟩, before⟩, after⟩ := judged
  have agrees := (check_reordered ⟨_, _, _, _, done⟩ filled (List.reverse_perm g.entities)).2 clean
  exact ⟨g, warnings, done, filled, clean, before, after, agrees⟩

end Graph

end EntityGraph
