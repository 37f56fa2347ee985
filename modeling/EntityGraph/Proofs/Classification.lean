import EntityGraph.Proofs.Reading

/-!
What becomes of the lines of a schema text. A line stands for a relation if its type is a list, if
one of its directives says so, or if its type is neither a scalar nor an enumeration of the text;
any other line stands for a field. Nothing else has a part in it, and no line is left out or read
twice.
-/
namespace EntityGraph

open Results

namespace Schema

/-- A directive that is there, and not with an argument whose value is false. -/
def Directives.On (ds : Directives) (name : String) : Prop :=
  ∃ arg, ds.lookup name = some arg ∧ ∀ a, arg = some a → literal a ≠ .ok (.bool false)

namespace Declaration

/-- A type in brackets, with or without exclamation marks behind them. -/
def Listed (d : Declaration) : Prop :=
  let inside := Text.stripEnd (· == '!') d.rawType.toList
  inside.head? = some '[' ∧ inside.getLast? = some ']'

/-- A declaration that stands for a relation, given the names of the enumerations. -/
def StandsForRelation (enums : List String) (d : Declaration) : Prop :=
  d.Listed ∨ (∃ name ∈ relationDirectives, d.directives.On name) ∨
    ScalarToken.ofLabel? (TypeExpr.base d.rawType) = none ∧ TypeExpr.base d.rawType ∉ enums

end Declaration

/-- What a declaration becomes in an entity. -/
inductive Becomes (enums : List String) (entity : String) (d : Declaration) : Item → Prop
  | field {f : Field} (plain : ¬ d.StandsForRelation enums) (name : f.name = d.name) :
      Becomes enums entity d (.field f)
  | relation {r : Relation} (stands : d.StandsForRelation enums)
      (name : r.name = (d.directives.arg? "name").getD d.name) (owner : r.owner = entity)
      (target : r.target =
        if r.type = some .morphTo then none else some (TypeExpr.base d.rawType)) :
      Becomes enums entity d (.relation r)

/-! ## Types without blanks -/

/-- No blank stands in the type of a declaration. -/
theorem solid_of_ofLine {line block : String} {number : Int} {d : Declaration}
    (done : Declaration.ofLine line number block = .ok d) :
    ∀ c ∈ d.rawType.toList, Text.isBlank c = false := by
  unfold Declaration.ofLine at done
  dsimp only at done
  split at done
  · split at done
    · cases done
    · cases done
      rw [String.toList_ofList, typeAndDirectives]
      split
      · simp
      · intro c member
        have kept := List.mem_takeWhile_imp member
        simpa using (Bool.and_eq_true_iff.1 kept).1
  · cases done

theorem mem_stripEnd {drop : Char → Bool} {cs : List Char} {c : Char}
    (member : c ∈ Text.stripEnd drop cs) : c ∈ cs := by
  rw [Text.stripEnd, List.mem_reverse] at member
  exact List.mem_reverse.1 ((List.dropWhile_sublist _).subset member)

theorem mem_stripChars {drop : Char → Bool} {cs : List Char} {c : Char}
    (member : c ∈ Text.stripChars drop cs) : c ∈ cs :=
  (List.dropWhile_sublist _).subset (mem_stripEnd member)

theorem trimChars_of_solid {cs : List Char} (solid : ∀ c ∈ cs, Text.isBlank c = false) :
    Text.trimChars cs = cs := by
  have same := Text.trimmed_of_notBlank solid
  rw [Text.Trimmed, Text.trim, String.toList_ofList] at same
  simpa using congrArg String.toList same

/-- In a type without blanks the base token is what is inside all wrappers. -/
theorem baseChars_of_solid {cs : List Char} (solid : ∀ c ∈ cs, Text.isBlank c = false) :
    TypeExpr.baseChars cs = Text.stripChars TypeExpr.isWrapper cs := by
  rw [TypeExpr.baseChars, trimChars_of_solid solid,
    trimChars_of_solid fun c member => solid c (mem_stripChars member)]

theorem base_base {raw : String} (solid : ∀ c ∈ raw.toList, Text.isBlank c = false) :
    TypeExpr.base (TypeExpr.base raw) = TypeExpr.base raw := by
  have inner : ∀ c ∈ Text.stripChars TypeExpr.isWrapper raw.toList, Text.isBlank c = false :=
    fun c member => solid c (mem_stripChars member)
  rw [TypeExpr.base, TypeExpr.base, String.toList_ofList, baseChars_of_solid solid,
    baseChars_of_solid inner, Text.stripChars_idem]

theorem isListType_iff {d : Declaration} (solid : ∀ c ∈ d.rawType.toList, Text.isBlank c = false) :
    isListType d.rawType = true ↔ d.Listed := by
  rw [isListType, TypeExpr.isList, String.toList_ofList, trimChars_of_solid solid,
    trimChars_of_solid fun c member => solid c (mem_stripEnd member)]
  simp only [Bool.and_eq_true, beq_iff_eq, Declaration.Listed]

/-- In the standard table a token is a scalar if it is one of the catalogue. -/
theorem isSome_scalar? {raw : String} (solid : ∀ c ∈ raw.toList, Text.isBlank c = false) :
    (TypeExpr.scalar? ScalarTable.standard (TypeExpr.base raw)).isSome = true ↔
      ScalarToken.ofLabel? (TypeExpr.base raw) ≠ none := by
  rw [TypeExpr.scalar?, base_base solid]
  cases ScalarToken.ofLabel? (TypeExpr.base raw) with
  | none => simp
  | some t => simp [Option.filter, ScalarTable.standard_find?]

/-! ## Directives -/

theorem hinted_iff {hints : TypeExpr.Hints} {name : String} :
    TypeExpr.hinted hints name = true ↔ ∃ v, hints.lookup name = some v ∧ v ≠ .bool false := by
  unfold TypeExpr.hinted
  split
  · rename_i absent
    simp [absent]
  · rename_i off
    simp [off]
  · rename_i v on found
    rw [found]
    exact iff_of_true rfl ⟨v, rfl, fun same => on same⟩

/-- The hints of a line say of each directive whether it is on. -/
theorem hinted_iff_on {d : Declaration} {hints : TypeExpr.Hints} (done : hintsOf d = .ok hints)
    (name : String) : TypeExpr.hinted hints name = true ↔ d.directives.On name := by
  have related := mapM_eq_ok (mapError_eq_ok.1 done)
  clear done
  rw [hinted_iff, Directives.On]
  generalize d.directives = ds at related
  induction related with
  | nil => simp
  | @cons directive hint ds hints first _ ih =>
    obtain ⟨n, arg⟩ := directive
    have value : ∃ v, hint = (n, v) ∧ (v ≠ .bool false ↔
        ∀ a, arg = some a → literal a ≠ .ok (.bool false)) := by
      cases arg with
      | none =>
        cases first
        exact ⟨.bool true, rfl, by simp⟩
      | some a =>
        obtain ⟨v, given, rfl⟩ := map_eq_ok.1 first
        refine ⟨v, rfl, ?_⟩
        simp [given]
    obtain ⟨v, rfl, same⟩ := value
    rw [List.lookup_cons, List.lookup_cons]
    cases name == n with
    | true => simp [same]
    | false => exact ih

/-- A declaration says that it is a relation by its type or by a directive. -/
theorem saysRelation_eq_ok {d : Declaration} {claimed : Bool}
    (solid : ∀ c ∈ d.rawType.toList, Text.isBlank c = false)
    (done : saysRelation d = .ok claimed) :
    claimed = true ↔ d.Listed ∨ ∃ name ∈ relationDirectives, d.directives.On name := by
  rw [← isListType_iff solid]
  unfold saysRelation at done
  split at done
  · rename_i listed
    cases done
    simp [listed]
  · rename_i unlisted
    obtain ⟨hints, given, done⟩ := bind_eq_ok.1 done
    cases done
    simp only [unlisted, List.any_eq_true, hinted_iff_on given]
    simp

/-! ## Members -/

theorem name_of_fieldOf {dialect : Dialect} {entity : String} {d : Declaration}
    {enum : Option EnumDefinition} {f : Field} (done : fieldOf dialect entity d enum = .ok f) :
    f.name = d.name := by
  obtain ⟨type, default, min, max, -, rfl⟩ := fieldOf_eq_ok done
  rfl

/-- Which member a declaration becomes. -/
theorem memberOf_stands {key : String} {enums : List EnumDefinition} {entity : String}
    {d : Declaration} {m : Member} (solid : ∀ c ∈ d.rawType.toList, Text.isBlank c = false)
    (done : memberOf { defaultLocalKey := key } enums entity d = .ok m) :
    (d.StandsForRelation (enums.map EnumDefinition.name) ∧ m = .relation d) ∨
      ¬ d.StandsForRelation (enums.map EnumDefinition.name) ∧ ∃ f, m = .field f ∧
        f.name = d.name := by
  unfold memberOf at done
  obtain ⟨claimed, said, done⟩ := bind_eq_ok.1 done
  have judged := saysRelation_eq_ok solid said
  split at done
  · rename_i yes
    cases done
    refine .inl ⟨?_, rfl⟩
    rcases judged.1 yes with listed | on
    · exact .inl listed
    · exact .inr (.inl on)
  · rename_i no
    have silent : ¬ (d.Listed ∨ ∃ name ∈ relationDirectives, d.directives.On name) :=
      fun claims => no (judged.2 claims)
    split at done
    · rename_i scalar
      obtain ⟨f, made, same⟩ := bind_eq_ok.1 done
      cases same
      refine .inr ⟨?_, f, rfl, name_of_fieldOf made⟩
      rintro (listed | on | ⟨unknown, -⟩)
      · exact silent (.inl listed)
      · exact silent (.inr on)
      · exact (isSome_scalar? solid).1 scalar unknown
    · rename_i noScalar
      have unknown : ScalarToken.ofLabel? (TypeExpr.base d.rawType) = none := by
        by_contra known
        exact noScalar ((isSome_scalar? solid).2 known)
      split at done
      · rename_i e found
        obtain ⟨f, made, same⟩ := bind_eq_ok.1 done
        cases same
        refine .inr ⟨?_, f, rfl, name_of_fieldOf made⟩
        rintro (listed | on | ⟨-, absent⟩)
        · exact silent (.inl listed)
        · exact silent (.inr on)
        · refine absent (List.mem_map.2 ⟨e, List.mem_of_find?_eq_some found, ?_⟩)
          simpa using List.find?_some found
      · rename_i absent
        cases done
        refine .inl ⟨.inr (.inr ⟨unknown, fun among => ?_⟩), rfl⟩
        obtain ⟨e, member, same⟩ := List.mem_map.1 among
        exact List.find?_eq_none.1 absent e member (by simpa using same)

/-! ## Relations -/

/-- The ends and the name of a relation that a declaration stands for. -/
theorem relation_of_builtRelation {dialect : Dialect} {entity : String} {d : Declaration}
    {r : Relation} (trimmed : Text.Trimmed entity) (named : d.name ≠ "")
    (built : builtRelation dialect entity d = .ok r) :
    r.name = (d.directives.arg? "name").getD d.name ∧ r.owner = entity ∧
      r.target = if r.type = some .morphTo then none else some (TypeExpr.base d.rawType) := by
  simp only [builtRelation, bind_eq_ok, mapError_eq_ok, Record.buildSketch_eq_ok] at built
  obtain ⟨type, -, built⟩ := built
  obtain ⟨type', owner, target, ends, rfl⟩ := Draft.build_eq_ok.1 built
  obtain ⟨rfl, rfl, leads, -, needed⟩ := ends_of_draftOf trimmed ends
  refine ⟨?_, rfl, ?_⟩
  · show (Relation.filled? (draftOf dialect owner d type').name).getD _ = _
    have called : Relation.filled? (draftOf dialect owner d type').name = some _ :=
      filled?_name named
    rw [called, Option.getD_some]
  · show Relation.filled? (some target) = if some type' = some .morphTo then none else _
    rw [leads, targetOf]
    by_cases free : type' = .morphTo
    · simp [free, RelationType.requiresTarget]
    · have required : type'.requiresTarget = true := by
        cases type' <;> simp_all [RelationType.requiresTarget]
      have given : Relation.filled? (some (TypeExpr.base d.rawType)) ≠ none := by
        rw [targetOf, if_pos required] at leads
        rw [← leads, Relation.filled?_some (needed.1 required)]
        exact Option.some_ne_none target
      obtain ⟨base, same⟩ := Option.ne_none_iff_exists'.1 given
      obtain ⟨written, -⟩ := Relation.filled?_eq_some.1 same
      rw [if_pos required, if_neg (by simpa using free), same, written]

theorem becomes_of_itemOf {key : String} {enums : List EnumDefinition} {block : String}
    {line : Nat × String} {x : Item} (trimmed : Text.Trimmed block)
    (item : ItemOf { defaultLocalKey := key } enums block line x) :
    ∃ d, Declaration.ofLine line.2 line.1 block = .ok d ∧
      Becomes (enums.map EnumDefinition.name) block d x := by
  obtain ⟨d, declared, gives⟩ := item
  have solid := solid_of_ofLine declared
  refine ⟨d, declared, ?_⟩
  cases gives with
  | field member =>
    rcases memberOf_stands solid member with ⟨-, other⟩ | ⟨plain, f, same, named⟩
    · cases other
    · cases same
      exact .field plain named
  | relation member built =>
    rcases memberOf_stands solid member with ⟨stands, -⟩ | ⟨-, f, other, -⟩
    · obtain ⟨name, owner, target⟩ :=
        relation_of_builtRelation trimmed (named_of_ofLine declared).2 built
      exact .relation stands name owner target
    · cases other

/-! ## Texts -/

/-- The names of the enumerations of a text. -/
def enumNames (s : String) : List String :=
  ((blocks s).filter Block.isEnum).map Block.name

/-- The entities of a text are those of its blocks in order. Each content line of a block becomes
    one field or one relation, and the entity has these in the order of the lines, and no others. -/
theorem read_items {key s : String} {c : Contents} {warnings : List Warning}
    (done : read { defaultLocalKey := key } s = .ok (c, warnings)) :
    List.Forall₂ (fun b e => e.name = b.name ∧ ∃ items,
        List.Forall₂ (fun line x => ∃ d, Declaration.ofLine line.2 line.1 b.name = .ok d ∧
          Becomes (enumNames s) e.name d x) b.contentLines items ∧
        e.fields = items.filterMap Item.field? ∧ e.relations = items.filterMap Item.relation?)
      ((blocks s).filter Block.isEntity) c.entities := by
  have whole : ContentsOf { defaultLocalKey := key } (blocks s) c := read_eq_ok.1 ⟨warnings, done⟩
  have names : enumNames s = c.enums.map EnumDefinition.name := by
    refine map_eq_of_related whole.enums fun b e listed => ?_
    rw [enum_of_enumOf listed]
  have words : ∀ b ∈ (blocks s).filter Block.isEntity, Text.Trimmed b.name :=
    fun b member => (isWord_of_blocks (List.mem_filter.1 member).1).trimmed
  rw [names]
  refine ((List.forall₂_and_left _ _).2 ⟨words, whole.entities⟩).imp ?_
  rintro b e ⟨trimmed, settings, items, -, given, rfl⟩
  exact ⟨rfl, items, given.imp fun line x item => becomes_of_itemOf trimmed item, rfl, rfl⟩

/-- A text with lines of all kinds: a scalar whose directive is off, an enumeration, a type that
    nothing declares, a scalar with a directive that is on, and a list. -/
def chores : String :=
  "type Chore \x7b\n  size: Int @hasOne(false)\n  state: State\n\x7d\n" ++
    "type Note \x7b\n  by: User\n  icon: Image @hasOne\n  on: [Chore!]!\n\x7d\n" ++
    "enum State \x7bopen\x7d"

/-- The blocks of the text. -/
def chorePieces : List Piece := [
  .block ⟨.type, "Chore", [],
    [(1, ""), (2, "  size: Int @hasOne(false)"), (3, "  state: State"), (4, "")]⟩,
  .block ⟨.type, "Note", [],
    [(5, ""), (6, "  by: User"), (7, "  icon: Image @hasOne"), (8, "  on: [Chore!]!"), (9, "")]⟩,
  .block ⟨.enum, "State", [], [(10, "open")]⟩]

/-- The lines of the first type become fields, and those of the second one relations. -/
theorem read_items_chores : ∃ c warnings, read {} chores = .ok (c, warnings) ∧
    (c.entities.map fun e => (e.fieldNames, e.relations.map Relation.name)) =
      [(["size", "state"], []), ([], ["by", "icon", "on"])] ∧
    List.Forall₂ (fun b e => e.name = b.name ∧ ∃ items,
        List.Forall₂ (fun line x => ∃ d, Declaration.ofLine line.2 line.1 b.name = .ok d ∧
          Becomes (enumNames chores) e.name d x) b.contentLines items ∧
        e.fields = items.filterMap Item.field? ∧ e.relations = items.filterMap Item.relation?)
      ((blocks chores).filter Block.isEntity) c.entities := by
  have split : pieces chores = chorePieces := by decide +kernel
  have passes : readsPieces {} chorePieces (fun c =>
      (c.entities.map fun e => (e.fieldNames, e.relations.map Relation.name)) ==
        [(["size", "state"], []), ([], ["by", "icon", "on"])]) = true := by
    decide +kernel
  obtain ⟨c, warnings, done, same⟩ := exists_of_readsPieces split passes
  exact ⟨c, warnings, done, beq_iff_eq.1 same, read_items done⟩

end Schema

end EntityGraph
