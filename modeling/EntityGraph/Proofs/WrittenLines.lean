import EntityGraph.Failure
import EntityGraph.Proofs.FieldLines
import EntityGraph.Proofs.Writing

/-!
Lines that are written from a name, a type and directives, and what is read back from them. Reading
gives these parts again whatever the arguments say: marks, parentheses and colons inside of an
argument are not looked at.
-/
namespace EntityGraph.Schema

/-- A line that declares something, as it can be written. -/
structure WrittenLine where
  name : String
  /-- The blanks behind the colon. -/
  gap : String
  /-- The type, or nothing. -/
  rawType : String
  directives : Directives
  trimmed : Text.Trimmed name
  named : name ≠ ""
  plain : ':' ∉ name.toList
  blank : ∀ c ∈ gap.toList, Text.isBlank c = true ∧ c ≠ '\n'
  typed : ∀ c ∈ rawType.toList, inType c = true
  legible : ∀ d ∈ directives, Legible d
  distinct : (directives.map Prod.fst).Nodup
  oneLine : ∀ d ∈ directives, ∀ arg, d.2 = some arg → '\n' ∉ arg.toList

/-- A directive by itself. -/
def mark : String × Option String → String
  | (name, none) => "@" ++ name
  | (name, some arg) => "@" ++ name ++ "(" ++ arg ++ ")"

theorem markOf_eq (d : String × Option String) : markOf d = " " ++ mark d := by
  obtain ⟨name, _ | arg⟩ := d <;> simp [markOf, mark, ← String.toList_inj]

namespace WrittenLine

variable (w : WrittenLine)

/-- What stands behind the colon: the type, if there is one, and the directives. -/
def parts : List String :=
  (if w.rawType = "" then [] else [w.rawType]) ++ w.directives.map mark

/-- The text of a line. -/
def text : String :=
  w.name ++ ":" ++ w.gap ++ " ".intercalate w.parts

/-- What the line is read as. -/
def declaration (number : Int) : Declaration :=
  ⟨w.name, w.rawType, w.directives, number⟩

/-! ## Behind the colon -/

private theorem toList_spaced (first : String) (ds : Directives) :
    (" ".intercalate (first :: ds.map mark)).toList = first.toList ++ (marksOf ds).toList := by
  induction ds generalizing first with
  | nil => simp [marksOf]
  | cons d ds ih =>
    rw [List.map_cons, String.intercalate_cons_cons, String.toList_append, ih, toList_marksOf_cons,
      markOf_eq]
    simp

/-- Behind the type the directives are written one by one, without a space if there is no type. -/
private theorem exists_marks : ∃ marks,
    (" ".intercalate w.parts).toList = w.rawType.toList ++ marks ∧
      (marks = (marksOf w.directives).toList ∨ ' ' :: marks = (marksOf w.directives).toList) ∧
      ∀ c ∈ marks.head?, c = '@' ∨ c = ' ' ∧ w.rawType ≠ "" := by
  rw [parts]
  split
  · rename_i untyped
    rw [List.nil_append, untyped]
    cases w.directives with
    | nil => exact ⟨[], by simp, .inl (by simp [marksOf]), by simp⟩
    | cons d ds =>
      refine ⟨(mark d).toList ++ (marksOf ds).toList, toList_spaced _ _, .inr ?_, ?_⟩
      · rw [toList_marksOf_cons, markOf_eq]
        simp
      · obtain ⟨name, _ | arg⟩ := d <;> simp [mark]
  · rename_i typed
    exact ⟨_, toList_spaced _ _, .inl rfl, fun c first => .inr ⟨head_marksOf _ c first, typed⟩⟩

/-- Neither the blanks behind the colon nor a type have a mark in them. -/
private theorem unmarked : '@' ∉ w.gap.toList ++ w.rawType.toList := by
  intro inside
  rcases List.mem_append.1 inside with early | late
  · exact absurd (w.blank '@' early).1 (by decide)
  · exact absurd (w.typed '@' late) (by decide)

private theorem newline_notMem_marks : '\n' ∉ (marksOf w.directives).toList := by
  have legible := w.legible
  have oneLine := w.oneLine
  generalize w.directives = ds at legible oneLine ⊢
  induction ds with
  | nil => simp [marksOf]
  | cons d ds ih =>
    obtain ⟨first, others⟩ := List.forall_mem_cons.1 legible
    obtain ⟨here, later⟩ := List.forall_mem_cons.1 oneLine
    obtain ⟨cs, named, -, word⟩ := first.word
    have name : '\n' ∉ d.1.toList := by
      rw [named, String.toList_ofList]
      exact fun inside => absurd (word '\n' inside) (by decide)
    rw [toList_marksOf_cons, List.mem_append, not_or]
    refine ⟨?_, ih others later⟩
    obtain ⟨n, _ | arg⟩ := d
    · simpa [markOf] using name
    · simpa [markOf, name] using here arg rfl

/-- The type ends where the directives begin. -/
private theorem typeToken_append {gap typ marks : List Char}
    (blank : ∀ c ∈ gap, Text.isBlank c = true) (typed : ∀ c ∈ typ, inType c = true)
    (stops : ∀ c ∈ marks.head?, c = '@' ∨ c = ' ' ∧ typ ≠ []) :
    typeToken (gap ++ (typ ++ marks)) = typ := by
  have ends : ∀ c ∈ marks.head?, inType c = false := by
    intro c first
    rcases stops c first with rfl | ⟨rfl, -⟩
    · decide
    · decide
  have solid : ∀ c ∈ (typ ++ marks).head?, Text.isBlank c = false := by
    intro c first
    cases typ with
    | nil =>
      rcases stops c first with rfl | ⟨-, filled⟩
      · decide
      · exact absurd rfl filled
    | cons d typ =>
      obtain rfl : d = c := Option.some.inj first
      have inside := typed d List.mem_cons_self
      simp only [inType, Bool.and_eq_true, Bool.not_eq_true'] at inside
      exact inside.1
  rw [typeToken, Text.dropWhile_append_of_head blank solid,
    Text.takeWhile_append_of_head typed ends]

/-! ## Reading -/

theorem ofLine_text (number : Int) (block : String) :
    Declaration.ofLine w.text number block = .ok (w.declaration number) := by
  obtain ⟨marks, split, shape, stops⟩ := w.exists_marks
  have text : w.text = String.ofList
      (w.name.toList ++ ':' :: (w.gap.toList ++ (w.rawType.toList ++ marks))) := by
    rw [← String.toList_inj, String.toList_ofList, ← split]
    simp [WrittenLine.text]
  have occurrences : directiveOccurrences marks = w.directives := by
    have written := directiveOccurrences_marksOf w.legible
    rcases shape with same | same
    · rw [same, written]
    · rwa [← same, directiveOccurrences_other (by decide)] at written
  have directives : directivesOf (w.gap.toList ++ (w.rawType.toList ++ marks)) = w.directives := by
    rw [← List.append_assoc, directivesOf, directiveOccurrences_plain w.unmarked, occurrences]
    exact Directives.foldl_put w.distinct
  have token : typeToken (w.gap.toList ++ (w.rawType.toList ++ marks)) = w.rawType.toList := by
    refine typeToken_append (fun c member => (w.blank c member).1) w.typed fun c first => ?_
    rcases stops c first with mark | ⟨space, typed⟩
    · exact .inl mark
    · exact .inr ⟨space, by simpa using typed⟩
  have oneLine : '\n' ∉ w.gap.toList ++ (w.rawType.toList ++ marks) := by
    simp only [List.mem_append, not_or]
    refine ⟨fun inside => (w.blank _ inside).2 rfl,
      fun inside => absurd (w.typed _ inside) (by decide), fun inside => ?_⟩
    refine w.newline_notMem_marks ?_
    rcases shape with same | same
    · exact same ▸ inside
    · exact same ▸ List.mem_cons_of_mem _ inside
  have name : String.ofList (Text.trimChars w.name.toList) = w.name := w.trimmed
  have named : ∃ c ∈ w.name.toList, Text.isBlank c = false := by
    by_contra blank
    simp only [not_exists, not_and, Bool.not_eq_false] at blank
    rw [Text.trimChars_eq_nil.2 blank] at name
    exact w.named name.symm
  rw [text, ofLine_eq w.plain named oneLine, name, token, directives, String.ofList_toList,
    declaration]

end WrittenLine

/-- Every line that is written from a name, a type and directives is read back as these. The lines
    that cannot be read are those without a name in front of a colon, and callers are told so. -/
theorem ofLine_written (number : Int) (block : String) :
    (∀ w : WrittenLine, Declaration.ofLine w.text number block = .ok (w.declaration number)) ∧
      ∀ line f, (Declaration.ofLine line number block).mapError
          (fun f => Failure.ofSchema (.declaration f)) = .error f ↔
        Nameless line ∧ f = .parse ("Cannot parse field line " ++ toString number ++ " in '" ++
          block ++ "': " ++ Text.quoted line) { entity := some block } := by
  refine ⟨fun w => w.ofLine_text number block, fun line f => ?_⟩
  by_cases nameless : Nameless line
  · rw [ofLine_nameless nameless]
    exact ⟨fun failed => ⟨nameless, (Except.error.inj failed).symm⟩,
      fun ⟨_, told⟩ => congrArg Except.error told.symm⟩
  · obtain ⟨d, declared⟩ := exists_ofLine nameless number block
    rw [declared]
    exact ⟨nofun, fun ⟨nameless', _⟩ => absurd nameless' nameless⟩

theorem blank_single : ∀ c ∈ " ".toList, Text.isBlank c = true ∧ c ≠ '\n' := by
  simp [Text.isBlank]

/-- A line without a type, with an argument that looks like other directives. -/
def noteLine : WrittenLine where
  name := "note (old)"
  gap := " "
  rawType := ""
  directives := [("comment", some "@sort @min(1: \"x\""), ("hidden", none), ("values", some "")]
  trimmed := by decide +kernel
  named := by decide
  plain := by decide
  blank := blank_single
  typed := by simp
  legible := by
    intro d member
    simp only [List.mem_cons, List.not_mem_nil, or_false] at member
    rcases member with rfl | rfl | rfl
    · exact ⟨⟨"comment".toList, by decide, by decide, List.all_eq_true.1 (by decide)⟩,
        by rintro arg ⟨⟩; decide⟩
    · exact ⟨⟨"hidden".toList, by decide, by decide, List.all_eq_true.1 (by decide)⟩, nofun⟩
    · exact ⟨⟨"values".toList, by decide, by decide, List.all_eq_true.1 (by decide)⟩,
        by rintro arg ⟨⟩; decide⟩
  distinct := by decide
  oneLine := by
    intro d member arg given
    simp only [List.mem_cons, List.not_mem_nil, or_false] at member
    rcases member with rfl | rfl | rfl
    · cases given; decide
    · cases given
    · cases given; decide

example : noteLine.text = "note (old): @comment(@sort @min(1: \"x\") @hidden @values()" := by
  decide +kernel

end EntityGraph.Schema
