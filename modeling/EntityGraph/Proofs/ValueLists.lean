import EntityGraph.Proofs.Trim
import EntityGraph.Schema.Contents

/-!
Lists of values in a text. Values are told apart by commas and blanks, as many as one likes, and
reading gives them in order: `splitValues` and the relation `Separated` say the same of a text.
-/
namespace EntityGraph.Schema

/-- A value: at least one character, and no comma or blank. -/
structure IsValue (v : List Char) : Prop where
  filled : v ≠ []
  solid : ∀ c ∈ v, isSeparator c = false

/-- A text of values, with commas and blanks in front of them, between them and behind them. -/
inductive Separated : List (List Char) → List Char → Prop
  | gap {gap : List Char} (apart : ∀ c ∈ gap, isSeparator c = true) : Separated [] gap
  | value {gap v rest : List Char} {vs : List (List Char)}
      (apart : ∀ c ∈ gap, isSeparator c = true) (value : IsValue v)
      (stops : ∀ c ∈ rest.head?, isSeparator c = true) (behind : Separated vs rest) :
      Separated (v :: vs) (gap ++ (v ++ rest))

variable {cs v gap rest : List Char} {vs : List (List Char)}

theorem isSeparator_of_blank {c : Char} (blank : Text.isBlank c = true) : isSeparator c = true := by
  rw [isSeparator, blank, Bool.true_or]

theorem Separated.first (value : IsValue v) (stops : ∀ c ∈ rest.head?, isSeparator c = true)
    (behind : Separated vs rest) : Separated (v :: vs) (v ++ rest) :=
  @Separated.value [] v rest vs (by simp) value stops behind

theorem Separated.append_gap (separated : Separated vs cs)
    (apart : ∀ c ∈ gap, isSeparator c = true) : Separated vs (cs ++ gap) := by
  induction separated with
  | gap front => exact .gap (List.forall_mem_append.2 ⟨front, apart⟩)
  | @value front v rest vs before value stops _ ih =>
    rw [List.append_assoc, List.append_assoc]
    refine .value before value ?_ ih
    cases rest with
    | nil => exact fun c first => apart c (List.mem_of_mem_head? first)
    | cons c rest => exact stops

theorem Separated.mem (separated : Separated vs cs) {c : Char} (member : c ∈ cs) :
    isSeparator c = true ∨ ∃ v ∈ vs, c ∈ v := by
  induction separated with
  | gap apart => exact .inl (apart c member)
  | @value gap v rest vs apart value stops _ ih =>
    rcases List.mem_append.1 member with front | member
    · exact .inl (apart c front)
    · rcases List.mem_append.1 member with inside | behind
      · exact .inr ⟨v, List.mem_cons_self, inside⟩
      · exact (ih behind).imp_right fun ⟨w, among, inside⟩ =>
          ⟨w, List.mem_cons_of_mem _ among, inside⟩

/-! ## Reading -/

theorem splitValues_gap (apart : ∀ c ∈ gap, isSeparator c = true) (cs : List Char) :
    splitValues (gap ++ cs) = splitValues cs := by
  induction gap with
  | nil => rfl
  | cons c gap ih =>
    obtain ⟨first, others⟩ := List.forall_mem_cons.1 apart
    rw [List.cons_append, splitValues.eq_def]
    exact (if_pos first).trans (ih others)

theorem splitValues_value (value : IsValue v) (stops : ∀ c ∈ rest.head?, isSeparator c = true) :
    splitValues (v ++ rest) = v :: splitValues rest := by
  obtain ⟨filled, solid⟩ := value
  induction v with
  | nil => exact absurd rfl filled
  | cons c v ih =>
    obtain ⟨first, others⟩ := List.forall_mem_cons.1 solid
    rw [List.cons_append, splitValues.eq_def]
    simp only [first, Bool.false_eq_true, if_false]
    cases v with
    | nil =>
      cases rest with
      | nil => rfl
      | cons d rest =>
        simp only [List.nil_append, stops d rfl, if_true]
    | cons d v =>
      have second := others d List.mem_cons_self
      have whole := ih (List.cons_ne_nil d v) others
      rw [List.cons_append] at whole ⊢
      simp only [second, Bool.false_eq_true, if_false, whole]

/-- Values are read as they are written. -/
theorem Separated.splitValues (separated : Separated vs cs) : splitValues cs = vs := by
  induction separated with
  | @gap gap apart =>
    have read := splitValues_gap apart []
    rwa [List.append_nil] at read
  | value apart value stops _ ih =>
    rw [splitValues_gap apart, splitValues_value value stops, ih]

private theorem Separated.cons_separator {c : Char} (separator : isSeparator c = true)
    (separated : Separated vs cs) : Separated vs (c :: cs) := by
  cases separated with
  | gap apart => exact .gap (List.forall_mem_cons.2 ⟨separator, apart⟩)
  | value apart value stops behind =>
    rw [← List.cons_append]
    exact .value (List.forall_mem_cons.2 ⟨separator, apart⟩) value stops behind

private theorem Separated.cons_solid {c d : Char} (first : isSeparator c = false)
    (second : isSeparator d = false) (separated : Separated vs (d :: cs)) :
    ∃ w ws, vs = w :: ws ∧ Separated ((c :: w) :: ws) (c :: d :: cs) := by
  generalize whole : d :: cs = text at separated
  cases separated with
  | gap apart =>
    subst whole
    exact absurd (apart d List.mem_cons_self) (by simp [second])
  | @value gap v rest vs apart value stops behind =>
    cases gap with
    | cons e gap =>
      cases whole
      exact absurd (apart d List.mem_cons_self) (by simp [second])
    | nil =>
      refine ⟨v, vs, rfl, ?_⟩
      have longer : IsValue (c :: v) :=
        ⟨List.cons_ne_nil c v, List.forall_mem_cons.2 ⟨first, value.solid⟩⟩
      exact .first longer stops behind

/-- Every text is one of the values that are read from it. -/
theorem separated_splitValues (cs : List Char) : Separated (Schema.splitValues cs) cs := by
  fun_induction Schema.splitValues cs with
  | case1 => exact .gap (by simp)
  | case2 c rest separator ih => exact ih.cons_separator separator
  | case3 c solid =>
    have value : IsValue [c] := ⟨List.cons_ne_nil c [], by simpa using solid⟩
    exact @Separated.first [c] [] [] value (by simp) (.gap (by simp))
  | case4 c solid d rest separator ih =>
    have value : IsValue [c] := ⟨List.cons_ne_nil c [], by simpa using solid⟩
    refine .first value ?_ ih
    rintro e ⟨⟩
    exact separator
  | case5 c solid d rest solid' none ih =>
    rw [none] at ih
    obtain ⟨_, _, impossible, -⟩ := ih.cons_solid (c := c) (by simpa using solid)
      (by simpa using solid')
    cases impossible
  | case6 c solid d rest solid' w ws read ih =>
    rw [read] at ih
    obtain ⟨_, _, same, longer⟩ := ih.cons_solid (c := c) (by simpa using solid)
      (by simpa using solid')
    cases same
    rw [read]
    exact longer

theorem splitValues_eq_iff : Schema.splitValues cs = vs ↔ Separated vs cs :=
  ⟨fun same => same ▸ separated_splitValues cs, Separated.splitValues⟩

theorem splitValues_trimChars (cs : List Char) :
    Schema.splitValues (Text.trimChars cs) = Schema.splitValues cs := by
  obtain ⟨tail, whole, blank, -⟩ := Text.exists_stripEnd Text.isBlank (cs.dropWhile Text.isBlank)
  have behind := (separated_splitValues (Text.trimChars cs)).append_gap
    fun c member => isSeparator_of_blank (blank c member)
  calc Schema.splitValues (Text.trimChars cs)
      = Schema.splitValues (Text.trimChars cs ++ tail) := behind.splitValues.symm
    _ = Schema.splitValues (cs.dropWhile Text.isBlank) := congrArg Schema.splitValues whole
    _ = Schema.splitValues (cs.takeWhile Text.isBlank ++ cs.dropWhile Text.isBlank) :=
        (splitValues_gap (fun c member =>
          isSeparator_of_blank (List.mem_takeWhile_imp member)) _).symm
    _ = Schema.splitValues cs := by rw [List.takeWhile_append_dropWhile]

end EntityGraph.Schema
