import EntityGraph.Proofs.Marks

/-!
Lines that declare something, with blanks wherever they may stand: what is read from them is a name,
the token behind the colon, and the directives of all that stands behind the colon.
-/
namespace EntityGraph

namespace Text

variable {p : Char → Bool} {c : Char} {front back tail cs : List Char}

theorem takeWhile_append_of_stop (stops : ∀ c ∈ back.head?, p c = false) (cs : List Char) :
    (cs ++ back).takeWhile p = cs.takeWhile p := by
  induction cs with
  | nil => exact takeWhile_of_head stops
  | cons c cs ih => rw [List.cons_append, List.takeWhile_cons, List.takeWhile_cons, ih]

/-- Trimming goes up to a character that is not blank, on either side of it. -/
theorem trimChars_append_cons (solid : isBlank c = false) (front back : List Char) :
    trimChars (front ++ c :: back) = front.dropWhile isBlank ++ c :: stripEnd isBlank back := by
  show stripEnd isBlank ((front ++ c :: back).dropWhile isBlank) = _
  rw [dropWhile_append_cons solid, stripEnd_append_cons solid]

theorem trimChars_dropWhile (cs : List Char) : trimChars (cs.dropWhile isBlank) = trimChars cs :=
  stripChars_dropWhile isBlank cs

theorem trimChars_ne_nil (filled : ∃ c ∈ cs, isBlank c = false) : trimChars cs ≠ [] := by
  intro none
  obtain ⟨tail, split, blank, -⟩ := exists_stripEnd isBlank (cs.dropWhile isBlank)
  have trimmed : stripEnd isBlank (cs.dropWhile isBlank) = [] := none
  rw [trimmed, List.nil_append] at split
  obtain ⟨c, member, solid⟩ := filled
  cases first : cs.dropWhile isBlank with
  | nil =>
    rw [List.dropWhile_eq_nil_iff.1 first c member] at solid
    cases solid
  | cons d rest =>
    have solid : isBlank d = false := head_dropWhile (by rw [first]; rfl)
    rw [blank d (by rw [split, first]; exact List.mem_cons_self)] at solid
    cases solid

theorem trimChars_eq_nil : trimChars cs = [] ↔ ∀ c ∈ cs, isBlank c = true := by
  constructor
  · intro none
    by_contra filled
    simp only [not_forall, Bool.not_eq_true, exists_prop] at filled
    exact trimChars_ne_nil filled none
  · intro blank
    rw [trimChars, stripChars, List.dropWhile_eq_nil_iff.2 blank]
    rfl

end Text

namespace Schema

variable {name rest front back tail cs : List Char}

/-! ## Types -/

/-- The characters of a type. -/
def inType (c : Char) : Bool :=
  !Text.isBlank c && c != '@'

/-- The type at the beginning of a text. -/
def typeToken (cs : List Char) : List Char :=
  (cs.dropWhile Text.isBlank).takeWhile inType

theorem inType_of_blank {c : Char} (blank : Text.isBlank c = true) : inType c = false := by
  simp [inType, blank]

theorem typeToken_cons_blank {c : Char} (blank : Text.isBlank c = true) (cs : List Char) :
    typeToken (c :: cs) = typeToken cs := by
  rw [typeToken, List.dropWhile_cons_of_pos blank, typeToken]

theorem typeToken_cons_solid {c : Char} (solid : Text.isBlank c = false) (cs : List Char) :
    typeToken (c :: cs) = (c :: cs).takeWhile inType := by
  rw [typeToken, List.dropWhile_cons_of_neg (by simp [solid])]

theorem typeToken_append_blank (blank : ∀ c ∈ tail, Text.isBlank c = true) (cs : List Char) :
    typeToken (cs ++ tail) = typeToken cs := by
  induction cs with
  | nil =>
    have none : tail.dropWhile Text.isBlank = [] := by simpa using blank
    rw [List.nil_append, typeToken, none]
    rfl
  | cons c cs ih =>
    cases first : Text.isBlank c with
    | true => rw [List.cons_append, typeToken_cons_blank first, typeToken_cons_blank first, ih]
    | false =>
      have stops : ∀ c ∈ tail.head?, inType c = false :=
        fun c found => inType_of_blank (blank c (List.mem_of_mem_head? found))
      rw [List.cons_append, typeToken_cons_solid first, typeToken_cons_solid first,
        ← List.cons_append, Text.takeWhile_append_of_stop stops]

/-! ## Directives -/

theorem notMark_of_blank (blank : ∀ c ∈ cs, Text.isBlank c = true) : '@' ∉ cs :=
  fun inside => absurd (blank '@' inside) (by decide)

theorem directiveOccurrences_append_blank (blank : ∀ c ∈ tail, Text.isBlank c = true)
    (cs : List Char) : directiveOccurrences (cs ++ tail) = directiveOccurrences cs := by
  have shut : ')' ∈ tail → ¬ ArgumentOpen cs :=
    fun inside => absurd (blank ')' inside) (by decide)
  have apart : ∀ c ∈ tail.head?, Text.isWordChar c = false ∧ c ≠ '(' :=
    fun c first => apart_of_blank (blank c (List.mem_of_mem_head? first))
  have none : directiveOccurrences tail = [] := by
    have plain := directiveOccurrences_plain (notMark_of_blank blank) []
    rw [List.append_nil] at plain
    rw [plain, directiveOccurrences]
  rw [directiveOccurrences_append shut apart, none, List.append_nil]

theorem directiveOccurrences_dropWhile {p : Char → Bool} (mark : p '@' = false) (cs : List Char) :
    directiveOccurrences (cs.dropWhile p) = directiveOccurrences cs := by
  have plain : '@' ∉ cs.takeWhile p := by
    intro inside
    have holds := List.mem_takeWhile_imp inside
    rw [mark] at holds
    cases holds
  calc directiveOccurrences (cs.dropWhile p)
      = directiveOccurrences (cs.takeWhile p ++ cs.dropWhile p) :=
        (directiveOccurrences_plain plain _).symm
    _ = directiveOccurrences cs := by rw [List.takeWhile_append_dropWhile]

/-- What stands behind a colon is read as its type and its directives. -/
theorem typeAndDirectives_eq (oneLine : '\n' ∉ cs) : ∃ after,
    typeAndDirectives cs = (typeToken cs, after) ∧ directivesOf after = directivesOf cs := by
  obtain ⟨tail, split, blank, -⟩ := Text.exists_stripEnd Text.isBlank (cs.dropWhile Text.isBlank)
  have trimmed : Text.stripEnd Text.isBlank (cs.dropWhile Text.isBlank) = Text.trimChars cs := rfl
  rw [trimmed] at split
  have stops : ∀ c ∈ tail.head?, inType c = false :=
    fun c found => inType_of_blank (blank c (List.mem_of_mem_head? found))
  have token : typeToken cs = (Text.trimChars cs).takeWhile inType := by
    rw [typeToken, ← split, Text.takeWhile_append_of_stop stops]
  refine ⟨((Text.trimChars cs).dropWhile inType).dropWhile Text.isBlank, ?_, ?_⟩
  · have within : '\n' ∉ ((Text.trimChars cs).dropWhile inType).dropWhile Text.isBlank := by
      intro inside
      have member := (List.dropWhile_sublist _).subset ((List.dropWhile_sublist _).subset inside)
      have whole : '\n' ∈ cs.dropWhile Text.isBlank := split ▸ List.mem_append_left tail member
      exact oneLine ((List.dropWhile_sublist _).subset whole)
    rw [token]
    exact if_neg (mt List.contains_iff_mem.1 within)
  · rw [directivesOf, directivesOf, directiveOccurrences_dropWhile (by decide),
      directiveOccurrences_dropWhile (by decide), ← directiveOccurrences_append_blank blank, split,
      directiveOccurrences_dropWhile (by decide)]

/-! ## Lines -/

/-- The name stands in front of the first colon. -/
private theorem split_at_colon (plain : ':' ∉ name) (rest : List Char) :
    (name ++ ':' :: rest).takeWhile (· != ':') = name ∧
      (name ++ ':' :: rest).dropWhile (· != ':') = ':' :: rest := by
  have inside : ∀ c ∈ name, (c != ':') = true := by
    intro c member
    simp only [bne_iff_ne]
    rintro rfl
    exact plain member
  have stops : ∀ c ∈ (':' :: rest).head?, (c != ':') = false := by
    rintro c ⟨⟩
    rfl
  exact ⟨Text.takeWhile_append_of_head inside stops, Text.dropWhile_append_of_head inside stops⟩

/-- A line with a colon behind something else than blanks declares something. -/
theorem ofLine_eq (plain : ':' ∉ name) (named : ∃ c ∈ name, Text.isBlank c = false)
    (oneLine : '\n' ∉ rest) (number : Int) (block : String) :
    Declaration.ofLine (String.ofList (name ++ ':' :: rest)) number block =
      .ok ⟨String.ofList (Text.trimChars name), String.ofList (typeToken rest), directivesOf rest,
        number⟩ := by
  obtain ⟨after, behind, directives⟩ := typeAndDirectives_eq oneLine
  obtain ⟨front, back⟩ := split_at_colon plain rest
  have filled := List.isEmpty_eq_false_iff.2 (Text.trimChars_ne_nil named)
  rw [Declaration.ofLine]
  simp only [String.toList_ofList, front, back, filled, behind, ← directives]
  rfl

/-- Blanks around a line make no difference. -/
theorem ofLine_trim (plain : ':' ∉ name) (named : ∃ c ∈ name, Text.isBlank c = false)
    (oneLine : '\n' ∉ rest) (number : Int) (block : String) :
    Declaration.ofLine (Text.trim (String.ofList (name ++ ':' :: rest))) number block =
      .ok ⟨String.ofList (Text.trimChars name), String.ofList (typeToken rest), directivesOf rest,
        number⟩ := by
  obtain ⟨tail, split, blank, -⟩ := Text.exists_stripEnd Text.isBlank rest
  have trimmed : Text.trim (String.ofList (name ++ ':' :: rest)) =
      String.ofList (name.dropWhile Text.isBlank ++ ':' :: Text.stripEnd Text.isBlank rest) := by
    rw [Text.trim, String.toList_ofList, Text.trimChars_append_cons (by decide)]
  have plain' : ':' ∉ name.dropWhile Text.isBlank :=
    fun inside => plain ((List.dropWhile_sublist _).subset inside)
  have named' : ∃ c ∈ name.dropWhile Text.isBlank, Text.isBlank c = false := by
    obtain ⟨c, member, solid⟩ := named
    rw [← List.takeWhile_append_dropWhile (p := Text.isBlank) (l := name)] at member
    rcases List.mem_append.1 member with early | late
    · rw [List.mem_takeWhile_imp early] at solid
      cases solid
    · exact ⟨c, late, solid⟩
  have oneLine' : '\n' ∉ Text.stripEnd Text.isBlank rest := by
    intro inside
    exact oneLine (split ▸ List.mem_append_left tail inside)
  have token := typeToken_append_blank blank (Text.stripEnd Text.isBlank rest)
  have marks := directiveOccurrences_append_blank blank (Text.stripEnd Text.isBlank rest)
  rw [split] at token marks
  rw [trimmed, ofLine_eq plain' named' oneLine', Text.trimChars_dropWhile, token, directivesOf,
    directivesOf, marks]

/-- A line that has no colon, or only blanks in front of the first one. -/
def Nameless (line : String) : Prop :=
  ':' ∉ line.toList ∨
    ∃ name rest, line.toList = name ++ ':' :: rest ∧ ∀ c ∈ name, Text.isBlank c = true

/-- Nameless lines declare nothing. -/
theorem ofLine_nameless {line : String} (nameless : Nameless line) (number : Int)
    (block : String) : Declaration.ofLine line number block = .error ⟨number, block, line⟩ := by
  rcases nameless with colonless | ⟨name, rest, split, blank⟩
  · have all : ∀ c ∈ line.toList, (c != ':') = true := by
      intro c member
      simp only [bne_iff_ne]
      rintro rfl
      exact colonless member
    rw [Declaration.ofLine, List.dropWhile_eq_nil_iff.2 all]
  · have plain : ':' ∉ name := fun inside => absurd (blank ':' inside) (by decide)
    obtain ⟨front, back⟩ := split_at_colon plain rest
    rw [Declaration.ofLine, split, front, back, Text.trimChars_eq_nil.2 blank]
    rfl

/-- All other lines declare something. -/
theorem exists_ofLine {line : String} (named : ¬ Nameless line) (number : Int) (block : String) :
    ∃ d, Declaration.ofLine line number block = .ok d := by
  obtain ⟨colon, filled⟩ := not_or.1 named
  obtain ⟨name, rest, split, plain⟩ := List.eq_append_cons_of_mem (not_not.1 colon)
  have solid : Text.trimChars name ≠ [] := fun empty =>
    filled ⟨name, rest, split, Text.trimChars_eq_nil.1 empty⟩
  obtain ⟨front, back⟩ := split_at_colon plain rest
  simp only [Declaration.ofLine, split, front, back, List.isEmpty_eq_false_iff.2 solid]
  exact ⟨_, rfl⟩

/-! ## Parts of a line -/

/-- A mark behind the type can be cut out, unless the type would go on behind it. -/
theorem typeToken_cut (mid : List Char)
    (typed : (∃ c ∈ front, Text.isBlank c = false) ∨
      ∀ c ∈ (back.dropWhile Text.isBlank).head?, c = '@')
    (apart : ∀ c ∈ back.head?, inType c = false) :
    typeToken (front ++ '@' :: (mid ++ back)) = typeToken (front ++ back) := by
  induction front with
  | nil =>
    have typed : ∀ c ∈ (back.dropWhile Text.isBlank).head?, c = '@' := by
      rcases typed with ⟨c, member, -⟩ | typed
      · cases member
      · exact typed
    have none : typeToken back = [] := by
      have stops : ∀ c ∈ (back.dropWhile Text.isBlank).head?, inType c = false := by
        intro c found
        rw [typed c found]
        decide
      exact Text.takeWhile_of_head stops
    rw [List.nil_append, List.nil_append, none, typeToken_cons_solid (by decide),
      List.takeWhile_cons_of_neg (by decide)]
  | cons c front ih =>
    cases first : Text.isBlank c with
    | true =>
      rw [List.cons_append, List.cons_append, typeToken_cons_blank first,
        typeToken_cons_blank first]
      apply ih
      rcases typed with ⟨d, member, solid⟩ | typed
      · rcases List.mem_cons.1 member with rfl | later
        · rw [first] at solid
          cases solid
        · exact .inl ⟨d, later, solid⟩
      · exact .inr typed
    | false =>
      have stops : ∀ c ∈ ('@' :: (mid ++ back)).head?, inType c = false := by
        rintro c ⟨⟩
        decide
      rw [List.cons_append, List.cons_append, typeToken_cons_solid first,
        typeToken_cons_solid first, ← List.cons_append,
        Text.takeWhile_append_of_stop stops, ← List.cons_append,
        Text.takeWhile_append_of_stop apart]

end Schema

end EntityGraph
