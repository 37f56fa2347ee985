import EntityGraph.Proofs.Declared

/-!
What reading a schema text comes to, block by block and line by line. Each line of an entity's block
gives the entity one item, a field or a relation, and the entity has the items in the order of the
lines. Contents are read from blocks exactly if each block can be read by itself and the names of
enumerations and those of entities are distinct.
-/
namespace EntityGraph

open Results

namespace Schema

variable {dialect : Dialect} {enums : List EnumDefinition}

/-! ## Items -/

/-- What a line gives its entity. -/
inductive Item where
  | field (f : Field)
  | relation (r : Relation)

/-- The field of an item. -/
def Item.field? : Item → Option Field
  | .field f => some f
  | .relation _ => none

/-- The relation of an item. -/
def Item.relation? : Item → Option Relation
  | .field _ => none
  | .relation r => some r

/-- The relation of a declaration, whether its target is known or not. -/
def builtRelation (dialect : Dialect) (entity : String) (d : Declaration) :
    Except SchemaFault Relation := do
  let type ← relationTypeOf d
  (Record.buildSketch ((draftOf dialect entity d type).map .text)).mapError .relation

/-- What a declaration gives its entity. -/
inductive Gives (dialect : Dialect) (enums : List EnumDefinition) (entity : String)
    (d : Declaration) : Item → Prop
  | field {f : Field} (member : memberOf dialect enums entity d = .ok (.field f)) :
      Gives dialect enums entity d (.field f)
  | relation {r : Relation} (member : memberOf dialect enums entity d = .ok (.relation d))
      (built : builtRelation dialect entity d = .ok r) :
      Gives dialect enums entity d (.relation r)

/-- What a line of a block gives the entity of the block. -/
def ItemOf (dialect : Dialect) (enums : List EnumDefinition) (block : String)
    (line : Nat × String) (x : Item) : Prop :=
  ∃ d, Declaration.ofLine line.2 line.1 block = .ok d ∧ Gives dialect enums block d x

/-- The entity of a block: its content lines give it one item each. -/
def EntityOf (dialect : Dialect) (enums : List EnumDefinition) (b : Block) (e : Entity) : Prop :=
  ∃ settings items, settingsOf b = .ok settings ∧
    List.Forall₂ (ItemOf dialect enums b.name) b.contentLines items ∧
    e = {
      name := b.name
      table := tableOf b
      fields := items.filterMap Item.field?
      relations := items.filterMap Item.relation?
      settings := settings }

/-! ## Members -/

theorem members_eq_ok {block : String} {lines : List (Nat × String)} {ms : List Member} :
    members dialect enums block lines = .ok ms ↔
      List.Forall₂ (fun line m => ∃ d, Declaration.ofLine line.2 line.1 block = .ok d ∧
        memberOf dialect enums block d = .ok m) lines ms := by
  induction lines generalizing ms with
  | nil =>
    rw [members, List.forall₂_nil_left_iff]
    exact ⟨fun same => (Except.ok.inj same).symm, fun same => same ▸ rfl⟩
  | cons line rest ih =>
    simp only [members, bind_eq_ok, pure_eq_ok, mapError_eq_ok, List.forall₂_cons_left_iff, ← ih]
    constructor
    · rintro ⟨d, read, m, made, others, done, rfl⟩
      exact ⟨m, others, ⟨d, read, made⟩, done, rfl⟩
    · rintro ⟨m, others, ⟨d, read, made⟩, done, rfl⟩
      exact ⟨d, read, m, made, others, done, rfl⟩

theorem relationOf_eq_ok_iff {names : List String} {entity : String} {d : Declaration}
    {r : Relation} :
    (∃ warning, relationOf dialect names entity d = .ok (r, warning)) ↔
      builtRelation dialect entity d = .ok r := by
  simp only [relationOf, builtRelation, bind_eq_ok, pure_eq_ok, Prod.mk.injEq]
  constructor
  · rintro ⟨_, type, typed, r, built, rfl, -⟩
    exact ⟨type, typed, built⟩
  · rintro ⟨type, typed, built⟩
    exact ⟨_, type, typed, r, built, rfl, rfl⟩

/-- Lines whose members are known give items when the relations among them can be built. -/
private theorem exists_items {block : String} {lines : List (Nat × String)} {ms : List Member}
    {rs : List Relation}
    (read : List.Forall₂ (fun line m => ∃ d, Declaration.ofLine line.2 line.1 block = .ok d ∧
      memberOf dialect enums block d = .ok m) lines ms)
    (built : List.Forall₂ (fun d r => builtRelation dialect block d = .ok r)
      (ms.filterMap Member.relation?) rs) :
    ∃ items, List.Forall₂ (ItemOf dialect enums block) lines items ∧
      items.filterMap Item.field? = ms.filterMap Member.field? ∧
      items.filterMap Item.relation? = rs := by
  induction read generalizing rs with
  | nil =>
    cases built
    exact ⟨[], .nil, rfl, rfl⟩
  | @cons line m lines ms first _ ih =>
    obtain ⟨d, declared, made⟩ := first
    cases m with
    | field f =>
      obtain ⟨items, given, fields, relations⟩ := ih built
      exact ⟨.field f :: items, .cons ⟨d, declared, .field made⟩ given,
        congrArg (f :: ·) fields, relations⟩
    | relation d' =>
      obtain rfl : d' = d := by
        rcases memberOf_eq_ok made with same | ⟨_, _, other, -⟩
        · exact Member.relation.inj same
        · cases other
      cases built with
      | cons here later =>
        rename_i r rs
        obtain ⟨items, given, fields, relations⟩ := ih later
        exact ⟨.relation r :: items, .cons ⟨d', declared, .relation made here⟩ given, fields,
          congrArg (r :: ·) relations⟩

/-- Lines that give items have members, whose relations can be built. -/
private theorem exists_members {block : String} {lines : List (Nat × String)} {items : List Item}
    (given : List.Forall₂ (ItemOf dialect enums block) lines items) :
    ∃ ms, List.Forall₂ (fun line m => ∃ d, Declaration.ofLine line.2 line.1 block = .ok d ∧
        memberOf dialect enums block d = .ok m) lines ms ∧
      ms.filterMap Member.field? = items.filterMap Item.field? ∧
      List.Forall₂ (fun d r => builtRelation dialect block d = .ok r)
        (ms.filterMap Member.relation?) (items.filterMap Item.relation?) := by
  induction given with
  | nil => exact ⟨[], .nil, rfl, .nil⟩
  | cons first _ ih =>
    obtain ⟨ms, read, fields, relations⟩ := ih
    obtain ⟨d, declared, gives⟩ := first
    cases gives with
    | @field f member =>
      exact ⟨.field f :: ms, .cons ⟨d, declared, member⟩ read, congrArg (f :: ·) fields, relations⟩
    | relation member built =>
      exact ⟨.relation d :: ms, .cons ⟨d, declared, member⟩ read, fields, .cons built relations⟩

/-! ## Entities -/

theorem shellOf_eq_ok {b : Block} {s : Shell} :
    shellOf dialect enums b = .ok s ↔ ∃ settings ms, settingsOf b = .ok settings ∧
      members dialect enums b.name b.contentLines = .ok ms ∧
      s = ⟨{ name := b.name, table := tableOf b, fields := ms.filterMap Member.field?,
             settings := settings }, ms.filterMap Member.relation?⟩ := by
  simp only [shellOf, entityPart_shellRecord, bind_eq_ok, pure_eq_ok, mapError_eq_ok]
  constructor
  · rintro ⟨settings, set, e, same, ms, read, rfl⟩
    cases same
    exact ⟨settings, ms, set, read, rfl⟩
  · rintro ⟨settings, ms, set, read, rfl⟩
    exact ⟨settings, set, _, rfl, ms, read, rfl⟩

theorem complete_eq_ok {names : List String} {s : Shell} {e : Entity} :
    (∃ warnings, s.complete dialect names = .ok (e, warnings)) ↔
      ∃ rs, List.Forall₂ (fun d r => builtRelation dialect s.entity.name d = .ok r) s.pending rs ∧
        e = { s.entity with relations := rs } := by
  simp only [Shell.complete, bind_eq_ok, pure_eq_ok, Prod.mk.injEq, mapM_eq_ok_iff]
  constructor
  · rintro ⟨_, pairs, read, rfl, -⟩
    refine ⟨pairs.map Prod.fst, ?_, rfl⟩
    rw [List.forall₂_map_right_iff]
    exact read.imp fun d pair made => relationOf_eq_ok_iff.1 ⟨pair.2, made⟩
  · rintro ⟨rs, built, rfl⟩
    have paired : List.Forall₂ (fun d r => ∃ pair, relationOf dialect names s.entity.name d =
        .ok pair ∧ pair.1 = r) s.pending rs := by
      refine built.imp fun d r made => ?_
      obtain ⟨warning, related⟩ := relationOf_eq_ok_iff.2 made
      exact ⟨(r, warning), related, rfl⟩
    obtain ⟨pairs, read, same⟩ := forall₂_comp.1 paired
    rw [← List.forall₂_map_left_iff, List.forall₂_eq_eq_eq] at same
    exact ⟨_, pairs, read, by rw [same], rfl⟩

/-- The entity of a block is read in two passes; which names are known makes no difference. -/
theorem entityOf_iff {b : Block} {e : Entity} (names : List String) :
    EntityOf dialect enums b e ↔ ∃ s, shellOf dialect enums b = .ok s ∧
      ∃ warnings, s.complete dialect names = .ok (e, warnings) := by
  simp only [shellOf_eq_ok, complete_eq_ok, members_eq_ok]
  constructor
  · rintro ⟨settings, items, set, given, rfl⟩
    obtain ⟨ms, read, fields, built⟩ := exists_members given
    exact ⟨_, ⟨settings, ms, set, read, rfl⟩, _, built, by rw [fields]⟩
  · rintro ⟨_, ⟨settings, ms, set, read, rfl⟩, rs, built, rfl⟩
    obtain ⟨items, given, fields, rfl⟩ := exists_items read built
    exact ⟨settings, items, set, given, by rw [fields]⟩

/-! ## Enumerations -/

private theorem acceptFilledText_eq_ok {s t : String}
    (done : Record.acceptFilledText (.text s) = .ok t) : t = s := by
  simp only [Record.acceptFilledText, bind_eq_ok] at done
  obtain ⟨_, same, _, whole, done⟩ := done
  cases same
  unfold Record.wholeCharacters at whole
  split at whole
  · cases whole
  · cases whole
    split at done
    · cases done
    · cases done
      rfl

private theorem acceptEnumValues_eq_ok {xs ys : List String}
    (done : Record.acceptEnumValues (.ofTexts xs) = .ok ys) : ys = xs := by
  simp only [Record.acceptEnumValues, Record.acceptList_ofTexts, bind_eq_ok] at done
  obtain ⟨_, same, done⟩ := done
  cases same
  split at done
  · cases done
  · split at done
    · cases done
      rfl
    · cases done

theorem enum_of_enumOf {b : Block} {e : EnumDefinition} (done : enumOf b = .ok e) :
    e = ⟨b.name, enumValues b⟩ := by
  obtain ⟨change, accepted, rfl⟩ := Record.readAttributes_of_read (mapError_eq_ok.1 done)
  change Record.Part.readAttributes (Record.entries
    [("name", .text b.name), ("values", .ofTexts (enumValues b))]) _ = _ at accepted
  have apart : ("values" == "name") = false := by decide
  simp only [Record.enumPart, Record.Part.readAttributes, Record.both_eq_ok,
    Record.Part.readAttribute, Record.Attribute.mandatory, Record.find?_entries, List.lookup_cons,
    Record.under, mapError_eq_ok, map_eq_ok, beq_self_eq_true, apart] at accepted
  obtain ⟨_, _, ⟨name, named, rfl⟩, ⟨_, _, ⟨values, listed, rfl⟩, same, rfl⟩, rfl⟩ := accepted
  cases same
  rw [← acceptFilledText_eq_ok named, ← acceptEnumValues_eq_ok listed]
  rfl

/-! ## Contents -/

theorem enumsFrom_eq_ok {seen : List String} {bs : List Block} {es : List EnumDefinition} :
    enumsFrom seen bs = .ok es ↔
      List.Forall₂ (fun b e => enumOf b = .ok e) bs es ∧ Apart seen bs := by
  refine eq_ok_of_steps (fun seen xs => ?_) fun seen b rest xs => ?_
  · exact ⟨fun done => (Except.ok.inj done).symm, fun none => none ▸ rfl⟩
  · rw [enumsFrom]
    by_cases repeated : b.name ∈ seen
    · simp [repeated, bind_eq_ok, throw_ne_ok]
    · simp only [List.contains_eq_mem, repeated, decide_false, Bool.false_eq_true, if_false,
        bind_eq_ok, pure_eq_ok, not_false_eq_true, true_and, exists_and_left]

/-- What blocks declare: each of them something by itself, under distinct names. -/
structure ContentsOf (dialect : Dialect) (bs : List Block) (c : Contents) : Prop where
  app : appOf bs = .ok c.app
  enums : List.Forall₂ (fun b e => enumOf b = .ok e) (bs.filter Block.isEnum) c.enums
  enumsApart : ((bs.filter Block.isEnum).map Block.name).Nodup
  entities : List.Forall₂ (EntityOf dialect c.enums) (bs.filter Block.isEntity) c.entities
  entitiesApart : ((bs.filter Block.isEntity).map Block.name).Nodup

theorem contentsOf_eq_ok {bs : List Block} {c : Contents} :
    (∃ warnings, contentsOf dialect bs = .ok (c, warnings)) ↔ ContentsOf dialect bs c := by
  have unseen : ∀ bs : List Block, Apart [] bs ↔ (bs.map Block.name).Nodup := by
    simp [Apart]
  simp only [contentsOf, enumsOf, bind_eq_ok, pure_eq_ok, Prod.mk.injEq, enumsFrom_eq_ok,
    shellsFrom_eq_ok, mapM_eq_ok_iff, unseen]
  constructor
  · rintro ⟨_, app, described, enums, ⟨listed, enumsApart⟩, shells, ⟨shelled, apart⟩, pairs,
      completed, rfl, -⟩
    refine ⟨described, listed, enumsApart, ?_, apart⟩
    rw [List.forall₂_map_right_iff]
    refine (forall₂_comp.2 ⟨shells, shelled, completed⟩).imp ?_
    rintro b pair ⟨s, made, done⟩
    exact (entityOf_iff _).2 ⟨s, made, pair.2, done⟩
  · rintro ⟨described, listed, enumsApart, entities, apart⟩
    have passes : List.Forall₂ (fun b e => ∃ s, shellOf dialect c.enums b = .ok s ∧
        ∀ names, ∃ warnings, s.complete dialect names = .ok (e, warnings))
        (bs.filter Block.isEntity) c.entities := by
      refine entities.imp fun b e whole => ?_
      obtain ⟨s, made, -⟩ := (entityOf_iff []).1 whole
      refine ⟨s, made, fun names => ?_⟩
      obtain ⟨s', made', done⟩ := (entityOf_iff names).1 whole
      exact Except.ok.inj (made'.symm.trans made) ▸ done
    obtain ⟨shells, shelled, completed⟩ := forall₂_comp.1 passes
    have paired : List.Forall₂ (fun s e => ∃ pair, s.complete dialect
        (shells.map (·.entity.name)) = .ok pair ∧ pair.1 = e) shells c.entities := by
      refine completed.imp fun s e done => ?_
      obtain ⟨warnings, done⟩ := done (shells.map (·.entity.name))
      exact ⟨(e, warnings), done, rfl⟩
    obtain ⟨pairs, done, same⟩ := forall₂_comp.1 paired
    rw [← List.forall₂_map_left_iff, List.forall₂_eq_eq_eq] at same
    exact ⟨_, c.app, described, c.enums, ⟨listed, enumsApart⟩, shells, ⟨shelled, apart⟩, pairs,
      done, by rw [same], rfl⟩

theorem read_eq_ok {s : String} {c : Contents} :
    (∃ warnings, read dialect s = .ok (c, warnings)) ↔ ContentsOf dialect (blocks s) c := by
  rw [← contentsOf_eq_ok]
  simp only [read, bind_eq_ok, pure_eq_ok, Prod.mk.injEq]
  constructor
  · rintro ⟨_, ⟨contents, told⟩, done, rfl, -⟩
    exact ⟨told, done⟩
  · rintro ⟨told, done⟩
    exact ⟨_, (c, told), done, rfl, rfl⟩

/-- A test of the contents of the pieces of a schema text. -/
def readsPieces (dialect : Dialect) (ps : List Piece) (test : Contents → Bool) : Bool :=
  match contentsOf dialect (ps.filterMap Piece.block?) with
  | .ok (c, _) => test c
  | .error _ => false

theorem exists_of_readsPieces {s : String} {ps : List Piece} {test : Contents → Bool}
    (split : pieces s = ps) (passes : readsPieces dialect ps test = true) :
    ∃ c warnings, read dialect s = .ok (c, warnings) ∧ test c = true := by
  unfold readsPieces at passes
  split at passes
  · rename_i c told done
    refine ⟨c, pieceWarnings ps ++ told, ?_, passes⟩
    rw [read, split, done]
    rfl
  · cases passes

end Schema

end EntityGraph
