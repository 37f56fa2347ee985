import EntityGraph.Failure
import EntityGraph.Proofs.Classification
import EntityGraph.Proofs.FieldLines

/-!
Types as they are handed over, for tables that need not have every token. An expression stands for
the scalar whose spelling it encloses, with nothing but blanks and wrappers around it; where the
table has no such token, for the relation that the hints pick. So an expression never fails. A token
that is handed over itself fails where the table leaves it out, although its spelling stands for a
relation there.
-/
namespace EntityGraph

namespace TypeExpr

variable {table : ScalarTable} {hints : Hints} {raw : String} {type : FieldType}

/-! ## Base tokens -/

/-- What may stand in front of a token: blanks, wrappers, and blanks again. -/
def Sheath (cs : List Char) : Prop :=
  ∃ outer marks inner, cs = outer ++ (marks ++ inner) ∧ (∀ c ∈ outer, Text.isBlank c = true) ∧
    (∀ c ∈ marks, isWrapper c = true) ∧ ∀ c ∈ inner, Text.isBlank c = true

/-- A text with nothing but blanks and wrappers around a token. -/
def Encloses (cs token : List Char) : Prop :=
  ∃ front back, cs = front ++ token ++ back ∧ Sheath front ∧ Sheath back.reverse

theorem isWrapper_of_isBlank {c : Char} (blank : Text.isBlank c = true) : isWrapper c = false := by
  cases wrapper : isWrapper c with
  | false => rfl
  | true =>
    simp only [isWrapper, Bool.or_eq_true, beq_iff_eq] at wrapper
    rcases wrapper with (rfl | rfl) | rfl <;> cases blank

/-- Nothing is left of what may stand in front of a token. -/
theorem Sheath.dropWhile {cs : List Char} (sheath : Sheath cs) :
    ((cs.dropWhile Text.isBlank).dropWhile isWrapper).dropWhile Text.isBlank = [] := by
  obtain ⟨outer, marks, inner, rfl, blank, wrappers, blank'⟩ := sheath
  have none : inner.dropWhile Text.isBlank = [] := List.dropWhile_eq_nil_iff.2 blank'
  rw [List.dropWhile_append_of_pos blank]
  cases marks with
  | nil => rw [List.nil_append, none]; rfl
  | cons m marks =>
    have first : Text.isBlank m = false := by
      have wrapper := wrappers m List.mem_cons_self
      cases first : Text.isBlank m with
      | false => rfl
      | true =>
        rw [isWrapper_of_isBlank first] at wrapper
        cases wrapper
    have stays : inner.dropWhile isWrapper = inner := Text.dropWhile_of_head fun c found =>
      isWrapper_of_isBlank (blank' c (List.mem_of_mem_head? found))
    rw [List.cons_append, List.dropWhile_cons_of_neg (by simp [first]), ← List.cons_append,
      List.dropWhile_append_of_pos wrappers, stays, none]

theorem encloses_baseChars (cs : List Char) : Encloses cs (baseChars cs) := by
  obtain ⟨outer, outer', split, blank, blank'⟩ := Text.exists_stripChars Text.isBlank cs
  obtain ⟨marks, marks', split', wrappers, wrappers'⟩ :=
    Text.exists_stripChars isWrapper (Text.trimChars cs)
  obtain ⟨inner, inner', split'', gap, gap'⟩ :=
    Text.exists_stripChars Text.isBlank (Text.stripChars isWrapper (Text.trimChars cs))
  refine ⟨outer ++ (marks ++ inner), inner' ++ (marks' ++ outer'), ?_,
    ⟨outer, marks, inner, rfl, blank, wrappers, gap⟩,
    ⟨outer'.reverse, marks'.reverse, inner'.reverse, by simp, by simpa using blank',
      by simpa using wrappers', by simpa using gap'⟩⟩
  calc cs = outer ++ Text.trimChars cs ++ outer' := split
    _ = outer ++ (marks ++ Text.stripChars isWrapper (Text.trimChars cs) ++ marks') ++ outer' :=
      congrArg (outer ++ · ++ outer') split'
    _ = outer ++ (marks ++ (inner ++ baseChars cs ++ inner') ++ marks') ++ outer' :=
      congrArg (fun mid => outer ++ (marks ++ mid ++ marks') ++ outer') split''
    _ = outer ++ (marks ++ inner) ++ baseChars cs ++ (inner' ++ (marks' ++ outer')) := by
      simp only [List.append_assoc]

/-- The base token is what nothing but blanks and wrappers surrounds. -/
theorem baseChars_eq_iff {cs token : List Char} (filled : token ≠ [])
    (solid : ∀ c ∈ token, Text.isBlank c = false ∧ isWrapper c = false) :
    baseChars cs = token ↔ Encloses cs token := by
  constructor
  · rintro rfl
    exact encloses_baseChars cs
  · rintro ⟨front, back, rfl, before, behind⟩
    have notBlank : ∀ c ∈ token, Text.isBlank c = false := fun c member => (solid c member).1
    have noWrapper : ∀ c ∈ token, isWrapper c = false := fun c member => (solid c member).2
    have none : Text.stripEnd Text.isBlank
        (Text.stripEnd isWrapper (Text.stripEnd Text.isBlank back)) = [] := by
      simp only [Text.stripEnd, List.reverse_reverse, behind.dropWhile, List.reverse_nil]
    simp only [baseChars, Text.trimChars, Text.stripChars_append_solid filled notBlank,
      Text.stripChars_append_solid filled noWrapper, before.dropWhile, none, List.nil_append,
      List.append_nil]

/-! ## Scalars -/

theorem label_solid (t : ScalarToken) : t.label.toList ≠ [] ∧
    ∀ c ∈ t.label.toList, Text.isBlank c = false ∧ isWrapper c = false := by
  have letters : t.label.toList ≠ [] ∧
      t.label.toList.all (fun c => !Text.isBlank c && !isWrapper c) = true := by
    cases t <;> decide +kernel
  exact ⟨letters.1, fun c member => by simpa using List.all_eq_true.1 letters.2 c member⟩

theorem ofLabel?_eq_some {s : String} {t : ScalarToken} :
    ScalarToken.ofLabel? s = some t ↔ s = t.label := by
  constructor
  · intro found
    have same := List.find?_some found
    exact (beq_iff_eq.1 same).symm
  · rintro rfl
    exact ScalarToken.ofLabel?_label t

/-- An expression names the tokens whose spelling it encloses. -/
theorem ofLabel?_base {t : ScalarToken} :
    ScalarToken.ofLabel? (base raw) = some t ↔ Encloses raw.toList t.label.toList := by
  obtain ⟨filled, solid⟩ := label_solid t
  rw [ofLabel?_eq_some, base, ← String.toList_inj, String.toList_ofList,
    baseChars_eq_iff filled solid]

theorem encloses_self (t : ScalarToken) : Encloses t.label.toList t.label.toList :=
  have nothing : Sheath [] := ⟨[], [], [], rfl, by simp, by simp, by simp⟩
  ⟨[], [], by simp, nothing, nothing⟩

/-! ## Relations -/

/-- A hint that is given and not switched off. -/
def Asked (hints : Hints) (name : String) : Prop :=
  ∃ v, hints.lookup name = some v ∧ v ≠ .bool false

/-- The relation type that hints pick: many targets come before one, and these before pairs. -/
inductive Picks (hints : Hints) : FieldType → Prop
  | hasMany (many : Asked hints "hasMany") : Picks hints .hasMany
  | hasOne (notMany : ¬ Asked hints "hasMany") (one : Asked hints "hasOne") : Picks hints .hasOne
  | belongsToMany (notMany : ¬ Asked hints "hasMany") (notOne : ¬ Asked hints "hasOne")
      (pairs : Asked hints "belongsToMany") : Picks hints .belongsToMany
  | belongsTo (notMany : ¬ Asked hints "hasMany") (notOne : ¬ Asked hints "hasOne")
      (noPairs : ¬ Asked hints "belongsToMany") : Picks hints .belongsTo

theorem placeholder_eq_iff : placeholder hints = type ↔ Picks hints type := by
  have asked (name : String) : hinted hints name = true ↔ Asked hints name := Schema.hinted_iff
  classical
  simp only [placeholder, asked]
  constructor
  · rintro rfl
    split_ifs with many one pairs
    · exact .hasMany many
    · exact .hasOne many one
    · exact .belongsToMany many one pairs
    · exact .belongsTo many one pairs
  · rintro (many | ⟨notMany, one⟩ | ⟨notMany, notOne, pairs⟩ | ⟨notMany, notOne, noPairs⟩)
    · rw [if_pos many]
    · rw [if_neg notMany, if_pos one]
    · rw [if_neg notMany, if_neg notOne, if_pos pairs]
    · rw [if_neg notMany, if_neg notOne, if_neg noPairs]

/-! ## Types -/

/-- The type that an expression stands for. -/
inductive Stands (table : ScalarTable) (hints : Hints) (raw : String) : FieldType → Prop
  | scalar {t : ScalarToken} {type : FieldType} (encloses : Encloses raw.toList t.label.toList)
      (listed : table.find? t = some type) : Stands table hints raw type
  | relation {type : FieldType}
      (unlisted : ∀ t, Encloses raw.toList t.label.toList → table.find? t = none)
      (picks : Picks hints type) : Stands table hints raw type

theorem normalize_eq_iff : normalize table raw hints = type ↔ Stands table hints raw type := by
  rw [normalize, scalarType?]
  constructor
  · rintro rfl
    cases named : ScalarToken.ofLabel? (base raw) with
    | none =>
      refine .relation (fun t encloses => ?_) (placeholder_eq_iff.1 rfl)
      rw [ofLabel?_base.2 encloses] at named
      cases named
    | some t =>
      cases found : table.find? t with
      | some listed =>
        rw [Option.bind_some, found]
        exact .scalar (ofLabel?_base.1 named) found
      | none =>
        rw [Option.bind_some, found]
        refine .relation (fun u encloses => ?_) (placeholder_eq_iff.1 rfl)
        rw [ofLabel?_base.2 encloses] at named
        cases named
        exact found
  · rintro (⟨encloses, listed⟩ | ⟨unlisted, picks⟩)
    · rw [ofLabel?_base.2 encloses, Option.bind_some, listed, Option.getD_some]
    · rw [placeholder_eq_iff.2 picks]
      cases named : ScalarToken.ofLabel? (base raw) with
      | none => rfl
      | some t => rw [Option.bind_some, unlisted t (ofLabel?_base.1 named), Option.getD_none]

/-- A token that the table lists is read from its spelling, too. -/
theorem normalize_label {t : ScalarToken} (listed : table.find? t = some type) :
    normalize table t.label hints = type :=
  normalize_eq_iff.2 (.scalar (encloses_self t) listed)

namespace Given

theorem normalize_token (t : ScalarToken) :
    (token t).normalize table hints = table.typeOf t := rfl

theorem typeOf_eq_ok {t : ScalarToken} :
    table.typeOf t = .ok type ↔ table.find? t = some type := by
  rw [ScalarTable.typeOf]
  split <;> simp_all

/-- Every expression has a type, and which one is told by what it encloses. A token has the type
    that the table gives it, and fails where the table leaves it out; only there it differs from
    its spelling. -/
theorem normalizes (table : ScalarTable) (hints : Hints) :
    (∀ raw, ∃ type, (expression raw).normalize table hints = .ok type) ∧
    (∀ raw type, (expression raw).normalize table hints = .ok type ↔
      Stands table hints raw type) ∧
    (∀ t type, (token t).normalize table hints = .ok type ↔ table.find? t = some type) ∧
    (∀ t, ((token t).normalize table hints).mapError Failure.ofUnlisted = .error .missingKey ↔
      table.find? t = none) ∧
    ∀ t, (token t).normalize table hints = (expression t.label).normalize table hints ↔
      table.find? t ≠ none := by
  refine ⟨fun raw => ⟨_, normalize_expression table raw hints⟩, fun raw type => ?_,
    fun t type => typeOf_eq_ok, fun t => ?_, fun t => ?_⟩
  · rw [normalize_expression, Except.ok.injEq, normalize_eq_iff]
  · rw [normalize_token, ScalarTable.typeOf]
    cases table.find? t with
    | none => simp [Except.mapError, Failure.ofUnlisted]
    | some type => simp [Except.mapError]
  · rw [normalize_token, normalize_expression]
    cases found : table.find? t with
    | none => simp [ScalarTable.typeOf, found]
    | some type =>
      rw [typeOf_eq_ok.2 found, normalize_label found]
      simp

/-- A table without whole numbers: their token fails, but their spelling is read as the name of an
    entity. -/
theorem normalize_unlisted :
    (token .int).normalize [(.string, .text)] [] = .error ⟨.int⟩ ∧
      (expression "Int").normalize [(.string, .text)] [] = .ok .belongsTo := by
  exact ⟨rfl, by decide +kernel⟩

end Given

end TypeExpr

end EntityGraph
