import EntityGraph.Proofs.Classification
import EntityGraph.Proofs.ValueLists

/-!
The types of the fields of a schema text. A field has the type of the scalar that its base token
names, or else the type of enumerations, with the values of the one that it names or of its own
directive. The token is looked up twice: to tell fields from relations wrappers are taken off two
times, and for the type one time. Both find the same, so no field ever has the type of a relation.
-/
namespace EntityGraph

open Results

namespace Schema

variable {key entity : String} {enums : List EnumDefinition} {d : Declaration} {f : Field}

/-- The values of a field of an enumeration: those that a directive lists, without their quotation
    marks, or else those of the enumeration. -/
inductive Declaration.Lists (d : Declaration) (e : EnumDefinition) : List String → Prop
  | enumeration (silent : ∀ arg, d.directives.raw? "values" = some arg → arg = "") :
      d.Lists e e.values
  | directive {arg : String} {tokens : List (List Char)}
      (given : d.directives.raw? "values" = some arg) (filled : arg ≠ "")
      (separated : Separated tokens arg.toList) :
      d.Lists e (tokens.map fun token => unquote (String.ofList token))

/-- The type that a declaration gives its field, and the values if it is no scalar. -/
inductive Declaration.Types (enums : List EnumDefinition) (d : Declaration) (f : Field) : Prop
  | scalar {t : ScalarToken} (known : ScalarToken.ofLabel? (TypeExpr.base d.rawType) = some t)
      (type : f.type = some t.fieldType)
  | enumeration {e : EnumDefinition}
      (unknown : ScalarToken.ofLabel? (TypeExpr.base d.rawType) = none) (listed : e ∈ enums)
      (name : e.name = TypeExpr.base d.rawType) (type : f.type = some .enum)
      (values : d.Lists e f.values)

/-- The types that stand for relations. -/
def placeholders : List FieldType := [.belongsTo, .hasOne, .hasMany, .belongsToMany]

theorem fieldType_notMem_placeholders (t : ScalarToken) : t.fieldType ∉ placeholders := by
  cases t <;> decide

theorem Declaration.Types.notMem_placeholders (types : d.Types enums f) :
    ∀ t ∈ f.type, t ∉ placeholders := by
  cases types with
  | scalar _ type =>
    rw [type]
    rintro t ⟨⟩
    exact fieldType_notMem_placeholders _
  | enumeration _ _ _ type _ =>
    rw [type]
    rintro t ⟨⟩
    decide

/-! ## Fields -/

theorem lists_fieldValues (d : Declaration) (e : EnumDefinition) :
    d.Lists e (fieldValues d (some e)) := by
  unfold fieldValues
  split
  · rename_i arg given
    obtain ⟨given, filled⟩ := Relation.filled?_eq_some.1 given
    have listed : d.Lists e _ := .directive given filled (separated_splitValues arg.toList)
    rwa [valuesOf, List.map_map]
  · rename_i absent
    refine .enumeration fun arg given => ?_
    by_contra filled
    rw [given, Relation.filled?_some filled] at absent
    cases absent

/-- The type and the values of a field. -/
theorem type_of_fieldOf {dialect : Dialect} {enum : Option EnumDefinition}
    (done : fieldOf dialect entity d enum = .ok f) :
    (∃ type, fieldTypeOf dialect d enum = .ok type ∧ f.type = some type) ∧
      f.values = fieldValues d enum := by
  simp only [fieldOf, bind_eq_ok, fieldPart_fieldRecord] at done
  obtain ⟨type, typed, default, -, min, -, max, -, made⟩ := done
  cases made
  exact ⟨⟨type, typed, rfl⟩, rfl⟩

/-- The type of a line is that of a scalar if its base token names one. -/
theorem fieldTypeOf_scalar {type : FieldType} {t : ScalarToken}
    (known : ScalarToken.ofLabel? (TypeExpr.base d.rawType) = some t)
    (done : fieldTypeOf { defaultLocalKey := key } d none = .ok type) : type = t.fieldType := by
  obtain ⟨hints, -, rfl⟩ := map_eq_ok.1 done
  rw [TypeExpr.normalize, TypeExpr.scalarType?, known, Option.bind_some, ScalarTable.standard_find?,
    Option.getD_some]

/-- A declaration that becomes a field gives it a type. -/
theorem types_of_memberOf (solid : ∀ c ∈ d.rawType.toList, Text.isBlank c = false)
    (done : memberOf { defaultLocalKey := key } enums entity d = .ok (.field f)) :
    d.Types enums f := by
  unfold memberOf at done
  obtain ⟨_, -, done⟩ := bind_eq_ok.1 done
  split at done
  · cases done
  · split at done
    · rename_i scalar
      obtain ⟨t, known⟩ := Option.ne_none_iff_exists'.1 ((isSome_scalar? solid).1 scalar)
      obtain ⟨f, made, same⟩ := bind_eq_ok.1 done
      cases same
      obtain ⟨⟨type, typed, given⟩, -⟩ := type_of_fieldOf made
      exact .scalar known (given.trans (congrArg some (fieldTypeOf_scalar known typed)))
    · rename_i noScalar
      have unknown : ScalarToken.ofLabel? (TypeExpr.base d.rawType) = none := by
        by_contra known
        exact noScalar ((isSome_scalar? solid).2 known)
      split at done
      · rename_i e found
        obtain ⟨f, made, same⟩ := bind_eq_ok.1 done
        cases same
        obtain ⟨⟨type, typed, given⟩, values⟩ := type_of_fieldOf made
        cases typed
        refine .enumeration unknown (List.mem_of_find?_eq_some found) ?_ given ?_
        · simpa using List.find?_some found
        · exact values ▸ lists_fieldValues d e
      · cases done

/-! ## Texts -/

/-- Every field of a text has the type and the values that its line gives it, with the enumerations
    that the blocks of the text list, and none has the type of a relation. -/
theorem read_field_types {s : String} {c : Contents} {warnings : List Warning}
    (done : read { defaultLocalKey := key } s = .ok (c, warnings)) :
    c.enums = ((blocks s).filter Block.isEnum).map (fun b => ⟨b.name, enumValues b⟩) ∧
      List.Forall₂ (fun b e => e.name = b.name ∧ ∃ items,
          List.Forall₂ (fun line x => ∃ d, Declaration.ofLine line.2 line.1 b.name = .ok d ∧
            ∀ f, x = .field f → d.Types c.enums f ∧ ∀ t ∈ f.type, t ∉ placeholders)
            b.contentLines items ∧
          e.fields = items.filterMap Item.field?)
        ((blocks s).filter Block.isEntity) c.entities := by
  have whole : ContentsOf { defaultLocalKey := key } (blocks s) c := read_eq_ok.1 ⟨warnings, done⟩
  constructor
  · have listed := whole.enums.imp fun b e made => (enum_of_enumOf made).symm
    exact (List.forall₂_eq_eq_eq ▸ List.forall₂_map_left_iff.2 listed : _ = c.enums).symm
  · refine whole.entities.imp ?_
    rintro b e ⟨settings, items, -, given, rfl⟩
    refine ⟨rfl, items, given.imp ?_, rfl⟩
    rintro line x ⟨d, declared, gives⟩
    refine ⟨d, declared, ?_⟩
    rintro f rfl
    cases gives with
    | field member =>
      have types := types_of_memberOf (solid_of_ofLine declared) member
      exact ⟨types, types.notMem_placeholders⟩

/-- A text with a scalar in wrappers, an enumeration that is called like a scalar, and a field that
    lists values of its own. -/
def errands : String :=
  "type Errand \x7b\n  title: !String!\n  state: [State\n" ++
    "  level: State @values(\"low\", high)\n\x7d\n" ++
    "enum State \x7bopen done\x7d\nenum String \x7ba\x7d"

/-- The blocks of the text. -/
def errandPieces : List Piece := [
  .block ⟨.type, "Errand", [], [(1, ""), (2, "  title: !String!"), (3, "  state: [State"),
    (4, "  level: State @values(\"low\", high)"), (5, "")]⟩,
  .block ⟨.enum, "State", [], [(6, "open done")]⟩,
  .block ⟨.enum, "String", [], [(7, "a")]⟩]

theorem read_field_types_errands : ∃ c warnings, read {} errands = .ok (c, warnings) ∧
    (c.entities.flatMap fun e => e.fields.map fun f => (f.name, f.type, f.values)) =
      [("title", some .string, []), ("state", some .enum, ["open", "done"]),
        ("level", some .enum, ["low", "high"])] ∧
    c.enums = ((blocks errands).filter Block.isEnum).map (fun b => ⟨b.name, enumValues b⟩) ∧
      List.Forall₂ (fun b e => e.name = b.name ∧ ∃ items,
          List.Forall₂ (fun line x => ∃ d, Declaration.ofLine line.2 line.1 b.name = .ok d ∧
            ∀ f, x = .field f → d.Types c.enums f ∧ ∀ t ∈ f.type, t ∉ placeholders)
            b.contentLines items ∧
          e.fields = items.filterMap Item.field?)
        ((blocks errands).filter Block.isEntity) c.entities := by
  have split : pieces errands = errandPieces := by decide +kernel
  have passes : readsPieces {} errandPieces (fun c =>
      (c.entities.flatMap fun e => e.fields.map fun f => (f.name, f.type, f.values)) ==
        [("title", some .string, []), ("state", some .enum, ["open", "done"]),
          ("level", some .enum, ["low", "high"])]) = true := by
    decide +kernel
  obtain ⟨c, warnings, done, same⟩ := exists_of_readsPieces split passes
  exact ⟨c, warnings, done, beq_iff_eq.1 same, read_field_types done⟩

end Schema

end EntityGraph
