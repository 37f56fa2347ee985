import EntityGraph.Proofs.Classification
import EntityGraph.Proofs.FieldLines
import EntityGraph.Proofs.Likeness

/-!
Relation directives that are switched off. A line with such a directive declares the same as the line
without it, unless it stands for a relation the type of which that directive decides: there it counts
as if it were on.
-/
namespace EntityGraph

open Results

namespace Schema

variable {dialect : Dialect} {enums : List EnumDefinition} {ds ds' : Directives}
  {name entity : String} {d : Declaration}

/-! ## Directives -/

namespace Directives

theorem has_eq (ds : Directives) (name : String) : ds.has name = (ds.lookup name).isSome := by
  induction ds with
  | nil => rfl
  | cons d ds ih =>
    obtain ⟨n, arg⟩ := d
    rw [has, List.any_cons, ← has, ih, List.lookup_cons, Bool.beq_comm]
    cases name == n with
    | true => rfl
    | false => rfl

/-- A directive is given with the argument false, wherever it is given. -/
def Off (ds : Directives) (name : String) : Prop :=
  ∀ arg, (name, arg) ∈ ds → arg = some "false"

/-- Directives that are the same but for one, which is off in both. -/
structure AlikeBut (ds : Directives) (name : String) (ds' : Directives) : Prop where
  others : ds.without name = ds'.without name
  off : ds.Off name
  off' : ds'.Off name

namespace AlikeBut

variable (alike : ds.AlikeBut name ds') {other : String}

include alike

theorem lookup (apart : other ≠ name) : ds.lookup other = ds'.lookup other := by
  rw [← lookup_without ds apart, alike.others, lookup_without ds' apart]

theorem has (apart : other ≠ name) : ds.has other = ds'.has other := by
  rw [has_eq, has_eq, alike.lookup apart]

theorem raw? (apart : other ≠ name) : ds.raw? other = ds'.raw? other := by
  rw [Directives.raw?, Directives.raw?, alike.lookup apart]

theorem arg? (apart : other ≠ name) : ds.arg? other = ds'.arg? other := by
  rw [Directives.arg?, Directives.arg?, alike.raw? apart]

end AlikeBut

end Directives

/-! ## Hints -/

/-- The hint that a directive gives. -/
def hintOf : String × Option String → Except Decimal.DigitExcess (String × Value)
  | (name, none) => .ok (name, .bool true)
  | (name, some arg) => (literal arg).map (name, ·)

theorem hints_eq (d : Declaration) : d.hints = d.directives.mapM hintOf := by
  rw [Declaration.hints]
  congr 1
  funext directive
  obtain ⟨name, _ | arg⟩ := directive
  · rfl
  · rfl

theorem hintOf_eq_ok {directive : String × Option String} {hint : String × Value}
    (given : hintOf directive = .ok hint) : hint.1 = directive.1 := by
  obtain ⟨name, _ | arg⟩ := directive
  · cases given
    rfl
  · obtain ⟨v, -, rfl⟩ := map_eq_ok.1 given
    rfl

theorem hinted_cons (hint : String × Value) (hints : TypeExpr.Hints) (other : String) :
    TypeExpr.hinted (hint :: hints) other =
      if other = hint.1 then TypeExpr.hinted [hint] other else TypeExpr.hinted hints other := by
  obtain ⟨n, v⟩ := hint
  simp only [TypeExpr.hinted, List.lookup_cons]
  by_cases same : other = n
  · simp [same]
  · simp [same, beq_eq_false_iff_ne.2 same]

/-- Leaving out a directive that is off changes nothing about which hints are given. -/
theorem related_hints_without (off : ds.Off name) :
    Related (fun h h' => (∀ other, TypeExpr.hinted h other = TypeExpr.hinted h' other) ∧
      TypeExpr.hinted h' name = false) (ds.mapM hintOf) ((ds.without name).mapM hintOf) := by
  induction ds with
  | nil => exact .ok ⟨fun _ => rfl, rfl⟩
  | cons directive ds ih =>
    have ih := ih fun arg member => off arg (List.mem_cons_of_mem _ member)
    obtain ⟨n, arg⟩ := directive
    rw [Directives.without] at ih ⊢
    by_cases same : n = name
    · subst same
      obtain rfl := off arg List.mem_cons_self
      have value : hintOf (n, some "false") = .ok (n, .bool false) := by
        have given : literal "false" = .ok (.bool false) := by rfl
        rw [hintOf, given]
        rfl
      rw [List.filter_cons_of_neg (by simp), List.mapM_cons, value]
      generalize ds.mapM hintOf = x at ih ⊢
      generalize (ds.filter (·.1 != n)).mapM hintOf = y at ih ⊢
      cases ih with
      | error e => exact .error e
      | @ok hints hints' related =>
        refine .ok ⟨fun other => ?_, related.2⟩
        rw [hinted_cons]
        by_cases here : other = n
        · rw [if_pos here, here, related.2]
          simp [TypeExpr.hinted]
        · rw [if_neg here, related.1]
    · rw [List.filter_cons_of_pos (by simpa using same), List.mapM_cons, List.mapM_cons]
      cases given : hintOf (n, arg) with
      | error e => exact .error e
      | ok hint =>
        have key : name ≠ hint.1 := by
          rw [hintOf_eq_ok given]
          exact Ne.symm same
        apply ih.bind
        intro hints hints' related
        refine .ok ⟨fun other => ?_, ?_⟩
        · rw [hinted_cons, hinted_cons hint hints', related.1]
        · rw [hinted_cons, if_neg key, related.2]

theorem related_hintsOf (alike : d.directives.AlikeBut name ds') :
    Related (fun h h' => TypeExpr.hinted h = TypeExpr.hinted h') (hintsOf d)
      (hintsOf { d with directives := ds' }) := by
  rw [hintsOf, hintsOf, hints_eq, hints_eq]
  apply Related.mapError
  have front := related_hints_without alike.off
  have back := related_hints_without alike.off'
  -- Both lists give the hints that are left when the directive is taken out.
  rw [alike.others] at front
  generalize d.directives.mapM hintOf = x at front ⊢
  generalize ds'.mapM hintOf = y at back ⊢
  generalize (ds'.without name).mapM hintOf = z at front back
  cases front with
  | error e =>
    cases back
    exact .error e
  | ok here =>
    cases back with
    | ok there => exact .ok (funext fun other => (here.1 other).trans (there.1 other).symm)

/-! ## Declarations -/

namespace Declaration

/-- A declaration whose directives do not say that it is a relation, with the type of a field. -/
structure StandsForField (dialect : Dialect) (enums : List String) (d : Declaration) : Prop where
  unlisted : ¬ d.Listed
  silent : ∀ name ∈ relationDirectives, ¬ d.directives.On name
  known : (TypeExpr.scalar? dialect.scalars (TypeExpr.base d.rawType)).isSome = true ∨
    TypeExpr.base d.rawType ∈ enums

/-- The directive that decides the type of a declaration, if that is a relation. -/
def decisive? (d : Declaration) : Option String :=
  (typeDirectives.find? fun directive => d.directives.has directive.1).map Prod.fst

end Declaration

private theorem apart_of_other {other : String} (relational : name ∈ relationDirectives)
    (plain : other ∉ relationDirectives) : other ≠ name := by
  rintro rfl
  exact plain relational

private theorem find?_eq_of_apart {α : Type} {xs : List (String × α)} {p q : String → Bool}
    (same : ∀ other ≠ name, p other = q other) (here : p name = true)
    (first : (xs.find? fun x => p x.1).map Prod.fst ≠ some name) :
    (xs.find? fun x => p x.1) = xs.find? fun x => q x.1 := by
  induction xs with
  | nil => rfl
  | cons x xs ih =>
    by_cases key : x.1 = name
    · rw [List.find?_cons_of_pos (by rw [key]; exact here)] at first
      exact absurd (congrArg some key) first
    · rw [List.find?_cons, List.find?_cons, ← same x.1 key]
      cases shown : p x.1 with
      | true => rfl
      | false =>
        rw [List.find?_cons_of_neg (by simp [shown])] at first
        exact ih first

section

variable (alike : d.directives.AlikeBut name ds') (relational : name ∈ relationDirectives)

include alike

theorem saysRelation_alike : saysRelation d = saysRelation { d with directives := ds' } := by
  unfold saysRelation
  dsimp only
  split
  · rfl
  · apply (related_hintsOf alike).eq
    intro hints hints' same
    rw [same]

theorem fieldTypeOf_alike (enum : Option EnumDefinition) :
    fieldTypeOf dialect d enum = fieldTypeOf dialect { d with directives := ds' } enum := by
  cases enum with
  | some e => rfl
  | none =>
    have related := related_hintsOf alike
    unfold fieldTypeOf
    dsimp only
    generalize hintsOf d = x at related ⊢
    generalize hintsOf { d with directives := ds' } = y at related ⊢
    cases related with
    | error e => rfl
    | ok same =>
      simp only [Except.map, TypeExpr.normalize, TypeExpr.placeholder, same]

theorem relationTypeOf_alike (given : d.directives.has name = true)
    (passive : d.decisive? ≠ some name) :
    relationTypeOf d = relationTypeOf { d with directives := ds' } := by
  have same : (typeDirectives.find? fun directive => d.directives.has directive.1) =
      typeDirectives.find? fun directive => ds'.has directive.1 :=
    find?_eq_of_apart (fun other apart => alike.has apart) given passive
  unfold relationTypeOf
  rw [same]
  dsimp only
  split
  · rfl
  · apply (related_hintsOf alike).eq
    intro hints hints' same
    simp only [TypeExpr.placeholder, same]

include relational

theorem fieldOf_alike (enum : Option EnumDefinition) : fieldOf dialect entity d enum =
    fieldOf dialect entity { d with directives := ds' } enum := by
  have raw : ∀ other ∉ relationDirectives, d.directives.raw? other = ds'.raw? other :=
    fun other plain => alike.raw? (apart_of_other relational plain)
  have has : ∀ other ∉ relationDirectives, d.directives.has other = ds'.has other :=
    fun other plain => alike.has (apart_of_other relational plain)
  have default : defaultOf d = defaultOf { d with directives := ds' } := by
    rw [defaultOf, defaultOf, raw "default" (by decide)]
  have whole : ∀ other ∉ relationDirectives, wholeArg? entity d other =
      wholeArg? entity { d with directives := ds' } other := by
    intro other plain
    rw [wholeArg?, wholeArg?, raw other plain]
  have values : fieldValues d enum = fieldValues { d with directives := ds' } enum := by
    rw [fieldValues, fieldValues, raw "values" (by decide)]
  have record : ∀ type default min max values, fieldRecord d type default min max values =
      fieldRecord { d with directives := ds' } type default min max values := by
    intro type default min max values
    have flags : ∀ flag ∈ flagDirectives, flag.1 ∉ relationDirectives := by decide
    rw [fieldRecord, fieldRecord]
    congr 1
    apply List.map_congr_left
    rintro ⟨directive, flag⟩ member
    dsimp only
    rw [has directive (flags _ member)]
  rw [fieldOf, fieldOf, fieldTypeOf_alike alike, default, whole "min" (by decide),
    whole "max" (by decide), values]
  simp only [record]

theorem relationOf_alike (given : d.directives.has name = true)
    (passive : d.decisive? ≠ some name) (names : List String) :
    relationOf dialect names entity d =
      relationOf dialect names entity { d with directives := ds' } := by
  have arg : ∀ other ∉ relationDirectives, d.directives.arg? other = ds'.arg? other :=
    fun other plain => alike.arg? (apart_of_other relational plain)
  have cascade : d.directives.has "cascade" = ds'.has "cascade" :=
    alike.has (apart_of_other relational (by decide))
  have draft : ∀ type, draftOf dialect entity d type =
      draftOf dialect entity { d with directives := ds' } type := by
    intro type
    rw [draftOf, draftOf, arg "foreignKey" (by decide), arg "localKey" (by decide),
      arg "relatedKey" (by decide), arg "relatedForeignKey" (by decide), arg "name" (by decide),
      arg "morphName" (by decide), arg "pivot" (by decide), cascade]
    rfl
  rw [relationOf, relationOf, relationTypeOf_alike alike given passive]
  simp only [draft]
  rfl

/-- A declaration without a directive that is off gives its entity the same as with it, if the line
    stands for a field or another directive decides the type of the relation. -/
theorem related_memberOf (given : d.directives.has name = true)
    (harmless : d.StandsForField dialect (enums.map EnumDefinition.name) ∨
      d.decisive? ≠ some name)
    (solid : ∀ c ∈ d.rawType.toList, Text.isBlank c = false) :
    Related (Member.Alike dialect entity) (memberOf dialect enums entity d)
      (memberOf dialect enums entity { d with directives := ds' }) := by
  have relation : ¬ d.StandsForField dialect (enums.map EnumDefinition.name) →
      Member.Alike dialect entity (.relation d) (.relation { d with directives := ds' }) := by
    intro related
    exact .relation (relationOf_alike alike relational given (harmless.resolve_left related))
  have field : ∀ enum, fieldOf dialect entity d enum =
      fieldOf dialect entity { d with directives := ds' } enum :=
    fieldOf_alike alike relational
  rw [memberOf, memberOf, ← saysRelation_alike alike]
  cases said : saysRelation d with
  | error e => exact .error e
  | ok claimed =>
    have judged := saysRelation_eq_ok solid said
    cases claimed with
    | true =>
      refine .ok (relation fun stands => ?_)
      rcases judged.1 rfl with listed | ⟨other, among, on⟩
      · exact stands.unlisted listed
      · exact stands.silent other among on
    | false =>
      simp only [← field]
      by_cases scalar : (TypeExpr.scalar? dialect.scalars (TypeExpr.base d.rawType)).isSome = true
      · simp only [scalar]
        exact Related.refl Member.Alike.refl _
      · cases found : enums.find? (·.name == TypeExpr.base d.rawType) with
        | some e =>
          simp only [scalar]
          exact Related.refl Member.Alike.refl _
        | none =>
          simp only [scalar]
          refine .ok (relation fun stands => ?_)
          have named := stands.known.resolve_left scalar
          obtain ⟨e, member, same⟩ := List.mem_map.1 named
          exact List.find?_eq_none.1 found e member (by simpa using same)

end

end Schema

end EntityGraph
