import EntityGraph.Proofs.Acceptors
import EntityGraph.Schema.Contents
import Mathlib.Data.List.TakeWhile

/-!
What a schema text declares. Whatever the text, the entities that are read from it have distinct
names, their fields have names and types, and their relations are drafts with all pieces filled in
that lead to an entity unless their type needs none. A warning stands for each relation to an entity
that the text does not declare, and for no other one.
-/
namespace EntityGraph

open Results

/-! ## Names -/

namespace Schema

/-- A name that is made of word characters, at least one. -/
def IsWord (name : String) : Prop :=
  ∃ cs, name = String.ofList cs ∧ cs ≠ [] ∧ ∀ c ∈ cs, Text.isWordChar c = true

theorem IsWord.trimmed {name : String} (word : IsWord name) : Text.Trimmed name := by
  obtain ⟨cs, rfl, -, solid⟩ := word
  exact Text.trimmed_of_notBlank fun c member => Text.notBlank_of_isWordChar (solid c member)

theorem IsWord.ne_empty {name : String} (word : IsWord name) : name ≠ "" := by
  obtain ⟨cs, rfl, filled, -⟩ := word
  intro empty
  exact filled (by simpa using congrArg String.toList empty)

private theorem isWord_of_heading? {cs : List Char} {h : Heading} (found : heading? cs = some h) :
    IsWord (String.ofList h.name) := by
  unfold heading? at found
  split at found
  · cases found
  · split at found
    · cases found
    · split at found
      · simp only at found
        split at found
        · cases found
        · rename_i filled
          cases found
          exact ⟨_, rfl, by simpa using filled, fun c member => List.mem_takeWhile_imp member⟩
      · cases found

/-- The names of blocks are words. -/
private theorem isWord_of_piecesFrom (line : Nat) (lineStart : Bool) (cs : List Char) (b : Block)
    (found : .block b ∈ piecesFrom line lineStart cs) : IsWord b.name := by
  fun_induction piecesFrom line lineStart cs with
  | case1 line cs noHeading ih => exact ih found
  | case2 line cs heading atHeading name noOpening ih =>
    exact ih (by simpa using found)
  | case3 line cs heading atHeading name header inner atOpening bodyLine noClosing ih =>
    exact ih (by simpa using found)
  | case4 line cs heading atHeading name header inner atOpening bodyLine body after atClosing ih =>
    rcases List.mem_cons.1 found with same | later
    · cases same
      exact isWord_of_heading? atHeading
    · exact ih later
  | case5 line => simp at found
  | case6 line rest ih => exact ih found
  | case7 line c rest other ih => exact ih found

theorem isWord_of_blocks {s : String} {b : Block} (member : b ∈ blocks s) : IsWord b.name := by
  obtain ⟨piece, found, same⟩ := List.mem_filterMap.1 member
  cases piece <;> cases same
  exact isWord_of_piecesFrom _ _ _ b found

end Schema

/-! ## Parts of a text -/

/-- A value that a literal can have. -/
def Value.IsScalar : Value → Prop
  | null | bool _ | int _ | float _ | text _ => True
  | _ => False

/-- A field as a schema text declares it. -/
structure Field.Declared (f : Field) : Prop where
  trimmed : Text.Trimmed f.name
  named : f.name ≠ ""
  typed : f.type ≠ none
  scalar : f.default.IsScalar
  length : f.length = none
  precision : f.precision = none
  scale : f.scale = none
  comment : f.comment = none
  belongsTo : f.belongsTo = none

/-- A relation as a schema text declares it: a draft of its ends, filled in. -/
structure Relation.Declared (defaultLocalKey owner : String) (r : Relation) : Prop where
  filled : ∃ (d : Draft String) (type : RelationType) (target : String),
    d.fill type owner target = r ∧ d.defaultLocalKey = defaultLocalKey ∧ d.inferred = false ∧
      Text.Trimmed target ∧ (type.requiresTarget = true ↔ target ≠ "")
  named : r.name ≠ ""

namespace Relation.Declared

variable {defaultLocalKey owner : String} {r : Relation}

theorem typed (declared : r.Declared defaultLocalKey owner) : r.type ≠ none := by
  obtain ⟨d, type, target, rfl, -⟩ := declared.filled
  exact Option.some_ne_none type

theorem target_iff (declared : r.Declared defaultLocalKey owner) :
    r.target ≠ none ↔ r.type ≠ some .morphTo := by
  obtain ⟨d, type, target, rfl, -, -, -, needed⟩ := declared.filled
  have free : type.requiresTarget = true ↔ some type ≠ some .morphTo := by
    cases type <;> simp [RelationType.requiresTarget]
  show Relation.filled? (some target) ≠ none ↔ some type ≠ some .morphTo
  rw [← free, needed]
  by_cases empty : target = ""
  · simp [empty, Relation.filled?]
  · simp [Relation.filled?_some empty, empty]

theorem target_filled (declared : r.Declared defaultLocalKey owner) {target : String}
    (leads : r.target = some target) : target ≠ "" := by
  obtain ⟨d, type, target', rfl, -⟩ := declared.filled
  have given : Relation.filled? (some target') = some target := leads
  exact (Relation.filled?_eq_some.1 given).2

theorem target_trimmed (declared : r.Declared defaultLocalKey owner) {target : String}
    (leads : r.target = some target) : Text.Trimmed target := by
  obtain ⟨d, type, target', rfl, -, -, trimmed, -⟩ := declared.filled
  have given : Relation.filled? (some target') = some target := leads
  obtain rfl : target' = target := Option.some.inj (Relation.filled?_eq_some.1 given).1
  exact trimmed

theorem owned (declared : r.Declared defaultLocalKey owner) : r.owner = owner := by
  obtain ⟨d, type, target, rfl, -⟩ := declared.filled
  rfl

theorem keyed (declared : r.Declared defaultLocalKey owner) (plain : r.isPolymorphic = false) :
    Relation.filled? r.foreignKey ≠ none := by
  obtain ⟨d, type, target, rfl, -⟩ := declared.filled
  have single : type.isPolymorphic = false := plain
  show Relation.filled? (Relation.filled? d.foreignKey <|> if type.isPolymorphic = true then _
    else some (Convention.foreignKey type owner target)) ≠ none
  rw [single, if_neg Bool.false_ne_true]
  exact Relation.filled?_orElse (Convention.foreignKey_ne_empty type owner target)

theorem tabled (declared : r.Declared defaultLocalKey owner)
    (typed : r.type = some .belongsToMany) :
    Relation.filled? r.pivotTable ≠ none := by
  obtain ⟨d, type, target, rfl, -⟩ := declared.filled
  obtain rfl : type = .belongsToMany := Option.some.inj typed
  exact Relation.filled?_orElse (Convention.pivotTable_ne_empty owner target)

end Relation.Declared

/-- An entity as a schema text declares it. -/
structure Entity.Declared (defaultLocalKey : String) (e : Entity) : Prop where
  word : Schema.IsWord e.name
  fields : ∀ f ∈ e.fields, f.Declared
  relations : ∀ r ∈ e.relations, r.Declared defaultLocalKey e.name

namespace Schema

/-! ## Literals -/

theorem isScalar_of_literal {s : String} {v : Value} (done : literal s = .ok v) : v.IsScalar := by
  unfold literal at done
  dsimp only at done
  split at done
  · cases done; trivial
  · split at done
    · cases done; trivial
    · split at done
      · cases done; trivial
      · split at done
        · rename_i n _
          unfold Numeral.value at done
          split at done
          · cases done; trivial
          · obtain ⟨n, -, rfl⟩ := map_eq_ok.1 done
            trivial
        · cases done; trivial

/-! ## Declarations -/

private theorem toList_ne_nil {cs : List Char} (filled : cs.isEmpty = false) :
    String.ofList cs ≠ "" := by
  intro empty
  have nothing : cs = [] := by simpa using congrArg String.toList empty
  rw [nothing] at filled
  cases filled

theorem named_of_ofLine {line block : String} {number : Int} {d : Declaration}
    (done : Declaration.ofLine line number block = .ok d) : Text.Trimmed d.name ∧ d.name ≠ "" := by
  unfold Declaration.ofLine at done
  dsimp only at done
  split at done
  · split at done
    · cases done
    · rename_i filled
      cases done
      have nonempty := toList_ne_nil (Bool.eq_false_iff.2 filled)
      refine ⟨?_, nonempty⟩
      have trimmed := Text.trimmed_trim (String.ofList (line.toList.takeWhile (· != ':')))
      rwa [Text.trim, String.toList_ofList] at trimmed
  · cases done

/-! ## Fields -/

/-- The field of a declaration with the given pieces. -/
def declaredField (d : Declaration) (type : FieldType) (default : Value) (min max : Option Int)
    (values : List String) : Field where
  name := d.name
  type := some type
  nullable := TypeExpr.isNullable d.rawType
  required := !TypeExpr.isNullable d.rawType
  sometimes := d.directives.has "sometimes"
  sortable := d.directives.has "sort"
  searchable := d.directives.has "search"
  unique := d.directives.has "unique"
  hidden := d.directives.has "hidden"
  default := default
  min := min
  max := max
  values := values

/-- What a declaration gives its field is always accepted. -/
theorem fieldPart_fieldRecord (d : Declaration) (type : FieldType) (default : Value)
    (min max : Option Int) (values : List String) :
    Record.fieldPart.ofRecord (fieldRecord d type default min max values) =
      .ok (declaredField d type default min max values) := by
  have typed := Record.acceptMember_fieldType (some type)
  rw [Option.map_some, Value.ofText?] at typed
  refine Record.ofRecord_of_readEntries (Record.readEntries_entries ?_ ?_)
  · simp [fieldRecord, flagDirectives, Record.fieldPart, Record.Attribute.optional]
  · simp [fieldRecord, flagDirectives, declaredField, Record.fieldPart, Record.Attribute.optional,
      Record.Part.readAttributes, Record.Part.readAttribute, List.lookup_cons, Except.map, typed]

theorem fieldOf_eq_ok {dialect : Dialect} {entity : String} {d : Declaration}
    {enum : Option EnumDefinition} {f : Field} (done : fieldOf dialect entity d enum = .ok f) :
    ∃ type default min max, default.IsScalar ∧
      declaredField d type default min max (fieldValues d enum) = f := by
  unfold fieldOf at done
  simp only [bind_eq_ok] at done
  obtain ⟨type, -, default, given, min, -, max, -, made⟩ := done
  rw [fieldPart_fieldRecord] at made
  refine ⟨type, default, min, max, ?_, Except.ok.inj made⟩
  unfold defaultOf at given
  split at given
  · cases given; trivial
  · exact isScalar_of_literal (mapError_eq_ok.1 given)

theorem declared_of_fieldOf {dialect : Dialect} {entity : String} {d : Declaration}
    {enum : Option EnumDefinition} {f : Field} (trimmed : Text.Trimmed d.name)
    (named : d.name ≠ "") (done : fieldOf dialect entity d enum = .ok f) : f.Declared := by
  obtain ⟨type, default, min, max, scalar, rfl⟩ := fieldOf_eq_ok done
  exact ⟨trimmed, named, Option.some_ne_none _, scalar, rfl, rfl, rfl, rfl, rfl⟩

/-! ## Members -/

/-- What a member of a block is: a field, or the declaration of one of the lines. -/
def Member.DeclaredIn (block : String) (lines : List (Nat × String)) : Member → Prop
  | .field f => f.Declared
  | .relation d => ∃ line ∈ lines, Declaration.ofLine line.2 line.1 block = .ok d

theorem memberOf_eq_ok {dialect : Dialect} {enums : List EnumDefinition} {entity : String}
    {d : Declaration} {m : Member} (done : memberOf dialect enums entity d = .ok m) :
    m = .relation d ∨ ∃ enum f, m = .field f ∧ fieldOf dialect entity d enum = .ok f := by
  unfold memberOf at done
  obtain ⟨_, -, done⟩ := bind_eq_ok.1 done
  split at done
  · cases done
    exact .inl rfl
  · split at done
    · obtain ⟨f, made, same⟩ := bind_eq_ok.1 done
      cases same
      exact .inr ⟨_, f, rfl, made⟩
    · split at done
      · obtain ⟨f, made, same⟩ := bind_eq_ok.1 done
        cases same
        exact .inr ⟨_, f, rfl, made⟩
      · cases done
        exact .inl rfl

theorem declared_of_members {dialect : Dialect} {enums : List EnumDefinition} {block : String}
    {lines : List (Nat × String)} {ms : List Member}
    (done : members dialect enums block lines = .ok ms) : ∀ m ∈ ms, m.DeclaredIn block lines := by
  induction lines generalizing ms with
  | nil =>
    cases done
    intro m member
    cases member
  | cons line rest ih =>
    simp only [members, bind_eq_ok, pure_eq_ok, mapError_eq_ok] at done
    obtain ⟨d, read, m, made, others, done, rfl⟩ := done
    obtain ⟨trimmed, named⟩ := named_of_ofLine read
    intro m' member
    rcases List.mem_cons.1 member with rfl | later
    · rcases memberOf_eq_ok made with rfl | ⟨enum, f, rfl, fielded⟩
      · exact ⟨line, List.mem_cons_self, read⟩
      · exact declared_of_fieldOf trimmed named fielded
    · have shape := ih done m' later
      cases m' with
      | field f => exact shape
      | relation d' =>
        obtain ⟨line', among, read'⟩ := shape
        exact ⟨line', List.mem_cons_of_mem _ among, read'⟩

/-! ## Shells -/

/-- The entity of a block before its relations are read. -/
structure Shell.Of (b : Block) (s : Shell) : Prop where
  name : s.entity.name = b.name
  table : s.entity.table = tableOf b
  fields : ∀ f ∈ s.entity.fields, f.Declared
  pending : ∀ d ∈ s.pending, ∃ line ∈ b.contentLines,
    Declaration.ofLine line.2 line.1 b.name = .ok d

theorem entityPart_shellRecord (b : Block) (settings : EntitySettings) :
    Record.entityPart.ofRecord (shellRecord b settings) =
      .ok { name := b.name, table := tableOf b, settings := settings } := by
  have set := Record.accept_of_readEntries (Record.settingsPart_record settings)
  refine Record.ofRecord_of_readEntries (Record.readEntries_entries ?_ ?_)
  · simp [shellRecord, Record.entityPart, Record.Attribute.optional]
  · simp [shellRecord, Record.entityPart, Record.Attribute.optional, Record.Part.readAttributes,
      Record.Part.readAttribute, List.lookup_cons, Except.map, set]

theorem shell_of_shellOf {dialect : Dialect} {enums : List EnumDefinition} {b : Block} {s : Shell}
    (done : shellOf dialect enums b = .ok s) : s.Of b := by
  simp only [shellOf, entityPart_shellRecord, bind_eq_ok, pure_eq_ok, mapError_eq_ok] at done
  obtain ⟨settings, -, e, same, ms, read, rfl⟩ := done
  cases same
  have declared := declared_of_members read
  refine ⟨rfl, rfl, ?_, ?_⟩
  · intro f member
    obtain ⟨m, inside, same⟩ := List.mem_filterMap.1 member
    cases m <;> cases same
    exact declared _ inside
  · intro d member
    obtain ⟨m, inside, same⟩ := List.mem_filterMap.1 member
    cases m <;> cases same
    exact declared _ inside

/-- Blocks with distinct names, none of which was seen. -/
def Apart (seen : List String) (bs : List Block) : Prop :=
  (bs.map Block.name).Nodup ∧ ∀ b ∈ bs, b.name ∉ seen

theorem apart_cons {seen : List String} {b : Block} {rest : List Block} :
    Apart seen (b :: rest) ↔ b.name ∉ seen ∧ Apart (b.name :: seen) rest := by
  rw [Apart, Apart, List.map_cons, List.nodup_cons, List.forall_mem_cons]
  simp only [List.mem_cons, not_or]
  constructor
  · rintro ⟨⟨fresh, distinct⟩, unseen, others⟩
    refine ⟨unseen, distinct, fun b' member => ⟨fun same => fresh ?_, others b' member⟩⟩
    exact same ▸ List.mem_map_of_mem member
  · rintro ⟨unseen, distinct, others⟩
    refine ⟨⟨fun repeated => ?_, distinct⟩, unseen, fun b' member => (others b' member).2⟩
    obtain ⟨b', member, same⟩ := List.mem_map.1 repeated
    exact (others b' member).1 same

/-- A reader that goes through blocks and refuses names that were seen reads each block by
    itself. -/
theorem eq_ok_of_steps {α : Type} {make : Block → Except SchemaFault α}
    {run : List String → List Block → Except SchemaFault (List α)}
    (stop : ∀ seen xs, run seen [] = .ok xs ↔ xs = [])
    (step : ∀ seen b rest xs, run seen (b :: rest) = .ok xs ↔ b.name ∉ seen ∧
      ∃ x others, make b = .ok x ∧ run (b.name :: seen) rest = .ok others ∧ x :: others = xs)
    {seen : List String} {bs : List Block} {xs : List α} :
    run seen bs = .ok xs ↔ List.Forall₂ (fun b x => make b = .ok x) bs xs ∧ Apart seen bs := by
  induction bs generalizing seen xs with
  | nil =>
    rw [stop, List.forall₂_nil_left_iff]
    exact ⟨fun none => ⟨none, List.nodup_nil, nofun⟩, fun none => none.1⟩
  | cons b rest ih =>
    rw [step, apart_cons, List.forall₂_cons_left_iff]
    simp only [ih]
    constructor
    · rintro ⟨fresh, x, others, made, ⟨related, apart⟩, rfl⟩
      exact ⟨⟨x, others, made, related, rfl⟩, fresh, apart⟩
    · rintro ⟨⟨x, others, made, related, rfl⟩, fresh, apart⟩
      exact ⟨fresh, x, others, made, ⟨related, apart⟩, rfl⟩

theorem shellsFrom_eq_ok {dialect : Dialect} {enums : List EnumDefinition} {seen : List String}
    {bs : List Block} {shells : List Shell} :
    shellsFrom dialect enums seen bs = .ok shells ↔
      List.Forall₂ (fun b s => shellOf dialect enums b = .ok s) bs shells ∧ Apart seen bs := by
  refine eq_ok_of_steps (fun seen xs => ?_) fun seen b rest xs => ?_
  · exact ⟨fun done => (Except.ok.inj done).symm, fun none => none ▸ rfl⟩
  · rw [shellsFrom]
    by_cases repeated : b.name ∈ seen
    · simp [repeated, bind_eq_ok, throw_ne_ok]
    · simp only [List.contains_eq_mem, repeated, decide_false, Bool.false_eq_true, if_false,
        bind_eq_ok, pure_eq_ok, not_false_eq_true, true_and, exists_and_left]

theorem shells_of_shellsFrom {dialect : Dialect} {enums : List EnumDefinition}
    {seen : List String} {bs : List Block} {shells : List Shell}
    (done : shellsFrom dialect enums seen bs = .ok shells) :
    List.Forall₂ Shell.Of bs shells ∧ Apart seen bs := by
  obtain ⟨made, apart⟩ := shellsFrom_eq_ok.1 done
  exact ⟨made.imp fun _ _ => shell_of_shellOf, apart⟩

/-! ## Relations -/

theorem trimmed_base (raw : String) : Text.Trimmed (TypeExpr.base raw) := by
  have trimmed := Text.trimmed_trim
    (String.ofList (Text.stripChars TypeExpr.isWrapper (Text.trimChars raw.toList)))
  rwa [Text.trim, String.toList_ofList] at trimmed

/-- The ends of a declared relation: its owner, and the target that is written, as it is. -/
theorem ends_of_draftOf {dialect : Dialect} {entity : String} {d : Declaration}
    {type type' : RelationType} {owner target : String} (trimmed : Text.Trimmed entity)
    (ends : (draftOf dialect entity d type).ends = .ok (type', owner, target)) :
    type' = type ∧ owner = entity ∧ Relation.filled? (some target) = targetOf type d ∧
      Text.Trimmed target ∧ (type.requiresTarget = true ↔ target ≠ "") := by
  obtain ⟨typed, owned, aimed, needed⟩ := Draft.ends_eq_ok.1 ends
  have same : type = type' := Option.some.inj typed
  subst same
  have named : owner = entity := by
    have given := (Relation.filled?_eq_some.1 owned).1
    exact (Option.some.inj given).symm.trans trimmed
  refine ⟨rfl, named, ?_⟩
  change (Relation.filled? ((targetOf type d).map Text.trim)).getD "" = target at aimed
  by_cases required : type.requiresTarget = true
  · have filled : target ≠ "" := needed required
    have written : targetOf type d = Relation.filled? (some (TypeExpr.base d.rawType)) := by
      rw [targetOf, if_pos required]
    by_cases empty : TypeExpr.base d.rawType = ""
    · rw [written, empty] at aimed
      exact absurd aimed.symm filled
    · rw [written, Relation.filled?_some empty, Option.map_some, trimmed_base,
        Relation.filled?_some empty, Option.getD_some] at aimed
      subst aimed
      exact ⟨written.symm, trimmed_base _, fun _ => filled, fun _ => required⟩
  · have written : targetOf type d = none := by
      rw [targetOf, if_neg required]
    rw [written, Option.map_none, Relation.filled?_none, Option.getD_none] at aimed
    subst aimed
    exact ⟨written.symm, rfl, fun needs => absurd needs required, fun filled => absurd rfl filled⟩

/-- A declared relation has the name of its directive, or else that of its line. -/
theorem filled?_name {d : Declaration} (named : d.name ≠ "") :
    Relation.filled? (d.directives.arg? "name" <|> some d.name) =
      some ((d.directives.arg? "name").getD d.name) := by
  cases given : d.directives.arg? "name" with
  | none => exact Relation.filled?_some named
  | some name =>
    refine Relation.filled?_some fun empty => ?_
    unfold Directives.arg? at given
    obtain ⟨arg, -, same⟩ := Option.bind_eq_some_iff.1 given
    simp [empty] at same

/-- The warning about a relation whose target is not among the names. -/
def targetWarning? (names : List String) (entity : String) (line : Int) (r : Relation) :
    Option Warning :=
  r.target.bind fun target =>
    if names.contains target then none else some (.unknownTarget entity r.name line target)

theorem relationOf_eq_ok {dialect : Dialect} {names : List String} {entity : String}
    {d : Declaration} {r : Relation} {warning : Option Warning} (trimmed : Text.Trimmed entity)
    (named : d.name ≠ "") (done : relationOf dialect names entity d = .ok (r, warning)) :
    r.Declared dialect.defaultLocalKey entity ∧ warning = targetWarning? names entity d.line r := by
  unfold relationOf at done
  simp only [bind_eq_ok, pure_eq_ok, mapError_eq_ok, Record.buildSketch_eq_ok,
    Prod.mk.injEq] at done
  obtain ⟨type, -, r', built, rfl, rfl⟩ := done
  obtain ⟨type', owner, target, ends, rfl⟩ := Draft.build_eq_ok.1 built
  obtain ⟨rfl, rfl, leads, solid, needed⟩ := ends_of_draftOf trimmed ends
  refine ⟨⟨⟨_, type', target, rfl, rfl, rfl, solid, needed⟩, ?_⟩, ?_⟩
  · have called : Relation.filled? (draftOf dialect owner d type').name = some _ :=
      filled?_name named
    show (Relation.filled? (draftOf dialect owner d type').name).getD _ ≠ ""
    rw [called]
    exact (Relation.filled?_eq_some.1 called).2
  · rw [targetWarning?, ← leads]
    rfl

theorem targetWarning?_eq_some {names : List String} {entity : String} {line : Int}
    {r : Relation} {w : Warning} : targetWarning? names entity line r = some w ↔
      ∃ target, r.target = some target ∧ target ∉ names ∧
        w = .unknownTarget entity r.name line target := by
  rw [targetWarning?, Option.bind_eq_some_iff]
  refine exists_congr fun target => and_congr_right fun _ => ?_
  by_cases known : target ∈ names
  · simp [known]
  · simp [known, eq_comm]

/-! ## Entities -/

/-- The warnings about the relations of an entity: one for each that leads to none of the names. -/
structure WarnsAbout (names : List String) (e : Entity) (warnings : List Warning) : Prop where
  each : ∀ r ∈ e.relations, ∀ target, r.target = some target → target ∉ names →
    ∃ line, .unknownTarget e.name r.name line target ∈ warnings
  only : ∀ w ∈ warnings, ∃ r ∈ e.relations, ∃ line target,
    w = .unknownTarget e.name r.name line target ∧ r.target = some target ∧ target ∉ names

theorem declared_of_complete {dialect : Dialect} {names : List String} {b : Block} {s : Shell}
    {e : Entity} {warnings : List Warning} (word : IsWord b.name) (shell : s.Of b)
    (done : s.complete dialect names = .ok (e, warnings)) :
    e.Declared dialect.defaultLocalKey ∧ e.name = b.name ∧ e.table = tableOf b ∧
      WarnsAbout names e warnings := by
  simp only [Shell.complete, bind_eq_ok, pure_eq_ok, Prod.mk.injEq] at done
  obtain ⟨rs, read, rfl, rfl⟩ := done
  have related := mapM_eq_ok read
  have trimmed : Text.Trimmed s.entity.name := shell.name ▸ word.trimmed
  have inverted : ∀ d ∈ s.pending, ∀ pair, relationOf dialect names s.entity.name d = .ok pair →
      pair.1.Declared dialect.defaultLocalKey s.entity.name ∧
        pair.2 = targetWarning? names s.entity.name d.line pair.1 := by
    intro d member pair made
    obtain ⟨line, -, read⟩ := shell.pending d member
    exact relationOf_eq_ok trimmed (named_of_ofLine read).2 made
  refine ⟨⟨?_, shell.fields, ?_⟩, shell.name, shell.table, ?_, ?_⟩
  · show IsWord s.entity.name
    rw [shell.name]
    exact word
  · intro r member
    obtain ⟨pair, inside, rfl⟩ := List.mem_map.1 member
    obtain ⟨d, owned, made⟩ := exists_of_mem_right related inside
    exact (inverted d owned pair made).1
  · intro r member target leads unknown
    obtain ⟨pair, inside, rfl⟩ := List.mem_map.1 member
    obtain ⟨d, owned, made⟩ := exists_of_mem_right related inside
    refine ⟨d.line, List.mem_filterMap.2 ⟨pair, inside, ?_⟩⟩
    rw [(inverted d owned pair made).2]
    exact targetWarning?_eq_some.2 ⟨target, leads, unknown, rfl⟩
  · intro w member
    obtain ⟨pair, inside, warned⟩ := List.mem_filterMap.1 member
    obtain ⟨d, owned, made⟩ := exists_of_mem_right related inside
    rw [(inverted d owned pair made).2] at warned
    obtain ⟨target, leads, unknown, rfl⟩ := targetWarning?_eq_some.1 warned
    exact ⟨pair.1, List.mem_map_of_mem inside, d.line, target, rfl, leads, unknown⟩

/-! ## Texts -/

/-- What a text declares, with the warnings about it. -/
structure Declares (defaultLocalKey : String) (s : String) (c : Contents)
    (warnings : List Warning) : Prop where
  distinct : (c.entities.map Entity.name).Nodup
  entities : ∀ e ∈ c.entities, e.Declared defaultLocalKey
  tables : ∀ e ∈ c.entities, ∃ b ∈ blocks s, b.isEntity = true ∧ e.table = tableOf b
  warned : ∀ e ∈ c.entities, ∀ r ∈ e.relations, ∀ target, r.target = some target →
    target ∉ c.entities.map Entity.name →
      ∃ line, .unknownTarget e.name r.name line target ∈ warnings
  warranted : ∀ entity relation line target,
    .unknownTarget entity relation line target ∈ warnings →
      ∃ e ∈ c.entities, e.name = entity ∧ ∃ r ∈ e.relations, r.name = relation ∧
        r.target = some target ∧ target ∉ c.entities.map Entity.name

private theorem not_mem_pieceWarnings {ps : List Piece} {entity relation target : String}
    {line : Int} : .unknownTarget entity relation line target ∉ pieceWarnings ps := by
  intro member
  rcases List.mem_append.1 member with unclosed | headless
  · obtain ⟨piece, -, same⟩ := List.mem_filterMap.1 unclosed
    cases piece <;> cases same
  · obtain ⟨piece, -, same⟩ := List.mem_filterMap.1 headless
    cases piece <;> cases same

theorem declares_of_read {dialect : Dialect} {s : String} {c : Contents} {warnings : List Warning}
    (done : read dialect s = .ok (c, warnings)) :
    Declares dialect.defaultLocalKey s c warnings := by
  simp only [read, contentsOf, bind_eq_ok, pure_eq_ok, Prod.mk.injEq] at done
  obtain ⟨⟨contents, told⟩, ⟨app, -, enums, -, shells, shelled, pairs, completed, rfl, rfl⟩, rfl,
    rfl⟩ := done
  obtain ⟨made, distinct, -⟩ := shells_of_shellsFrom shelled
  have related := mapM_eq_ok completed
  -- Each entity comes from a block of its name, and the names are those of the shells.
  have origin : ∀ pair ∈ pairs, ∃ b ∈ (blocks s).filter Block.isEntity,
      pair.1.Declared dialect.defaultLocalKey ∧ pair.1.name = b.name ∧
        pair.1.table = tableOf b ∧ WarnsAbout (shells.map (·.entity.name)) pair.1 pair.2 := by
    intro pair member
    obtain ⟨shell, among, completes⟩ := exists_of_mem_right related member
    obtain ⟨b, kept, shape⟩ := exists_of_mem_right made among
    exact ⟨b, kept, declared_of_complete (isWord_of_blocks (List.mem_filter.1 kept).1) shape
      completes⟩
  have names : shells.map (·.entity.name) = (pairs.map Prod.fst).map Entity.name := by
    rw [List.map_map]
    refine map_eq_of_related related fun shell pair completes => ?_
    simp only [Shell.complete, bind_eq_ok, pure_eq_ok] at completes
    obtain ⟨_, -, rfl⟩ := completes
    rfl
  have blockNames : ((blocks s).filter Block.isEntity).map Block.name =
      shells.map (·.entity.name) :=
    map_eq_of_related made fun _ _ shape => shape.name.symm
  rw [names] at origin
  refine ⟨?_, ?_, ?_, ?_, ?_⟩
  · show ((pairs.map Prod.fst).map Entity.name).Nodup
    rw [← names, ← blockNames]
    exact distinct
  · intro e member
    obtain ⟨pair, inside, rfl⟩ := List.mem_map.1 member
    obtain ⟨_, -, declared, -⟩ := origin pair inside
    exact declared
  · intro e member
    obtain ⟨pair, inside, rfl⟩ := List.mem_map.1 member
    obtain ⟨b, kept, -, -, table, -⟩ := origin pair inside
    obtain ⟨among, isEntity⟩ := List.mem_filter.1 kept
    exact ⟨b, among, isEntity, table⟩
  · intro e member r owned target leads unknown
    obtain ⟨pair, inside, rfl⟩ := List.mem_map.1 member
    obtain ⟨_, -, -, -, -, warns⟩ := origin pair inside
    obtain ⟨line, told⟩ := warns.each r owned target leads unknown
    exact ⟨line, List.mem_append_right _ (List.mem_flatMap.2 ⟨pair, inside, told⟩)⟩
  · intro entity relation line target told
    rcases List.mem_append.1 told with piece | told
    · exact absurd piece not_mem_pieceWarnings
    · obtain ⟨pair, inside, told⟩ := List.mem_flatMap.1 told
      obtain ⟨_, -, -, -, -, warns⟩ := origin pair inside
      obtain ⟨r, owned, line', target', same, leads, unknown⟩ := warns.only _ told
      cases same
      exact ⟨pair.1, List.mem_map_of_mem inside, rfl, r, owned, rfl, leads, unknown⟩

end Schema

end EntityGraph
