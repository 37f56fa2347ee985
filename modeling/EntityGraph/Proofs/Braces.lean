import EntityGraph.Proofs.Headings

/-!
Braces of a text and of its parts. Whether braces are balanced is a question of the braces alone,
and a part that opens as many as it closes can be cut out.
-/
namespace EntityGraph.Schema

variable {depth : Nat} {before mid after front cs : List Char}

/-! ## Braces alone -/

def isBrace (c : Char) : Bool :=
  c == '\x7b' || c == '\x7d'

theorem nested_filter : Nested depth (cs.filter isBrace) ↔ Nested depth cs := by
  induction cs generalizing depth with
  | nil => rfl
  | cons c rest ih =>
    by_cases opening : c = '\x7b'
    · subst opening
      rw [List.filter_cons_of_pos (by rfl), nested_cons (.opens depth), nested_cons (.opens depth), ih]
    · by_cases closing : c = '\x7d'
      · subst closing
        rw [List.filter_cons_of_pos (by rfl)]
        cases depth with
        | zero => simp [not_nested_close]
        | succ depth => rw [nested_cons (.closes depth), nested_cons (.closes depth), ih]
      · rw [List.filter_cons_of_neg (by simp [isBrace, opening, closing]),
          nested_cons (.stays depth opening closing), ih]

theorem balanced_filter : Balanced depth (cs.filter isBrace) ↔ Balanced depth cs := by
  have opening := List.count_filter (l := cs) (p := isBrace) (a := '\x7b') rfl
  have closing := List.count_filter (l := cs) (p := isBrace) (a := '\x7d') rfl
  constructor
  · rintro ⟨closed, nested⟩
    exact ⟨by omega, nested_filter.1 nested⟩
  · rintro ⟨closed, nested⟩
    exact ⟨by omega, nested_filter.2 nested⟩

theorem nested_append_of_plain (plain : ∀ c ∈ front, isBrace c = false) :
    Nested depth (front ++ cs) ↔ Nested depth cs := by
  have none : front.filter isBrace = [] := by simpa [List.filter_eq_nil_iff] using plain
  rw [← nested_filter, List.filter_append, none, List.nil_append, nested_filter]

/-! ## Parts -/

theorem nested_append : Nested depth (before ++ after) ↔ Nested depth before ∧
    ∀ front, front <+: after →
      (before ++ front).count '\x7d' ≤ (before ++ front).count '\x7b' + depth := by
  constructor
  · intro nested
    refine ⟨fun front within => nested front (within.trans (List.prefix_append _ _)), ?_⟩
    intro front within
    exact nested _ ((List.prefix_append_right_inj before).2 within)
  · rintro ⟨nested, beyond⟩ front ⟨rest, split⟩
    rcases List.append_eq_append_iff.1 split with ⟨more, rfl, -⟩ | ⟨more, rfl, same⟩
    · exact nested front (List.prefix_append _ _)
    · exact beyond more ⟨rest, same.symm⟩

/-- A part that opens as many braces as it closes can be cut out. -/
theorem nested_cut (level : mid.count '\x7b' = mid.count '\x7d')
    (nested : Nested depth (before ++ (mid ++ after))) : Nested depth (before ++ after) := by
  rw [nested_append] at nested ⊢
  refine ⟨nested.1, fun front within => ?_⟩
  have whole := nested.2 (mid ++ front) ((List.prefix_append_right_inj mid).2 within)
  simp only [List.count_append] at whole ⊢
  omega

theorem balanced_cut (level : mid.count '\x7b' = mid.count '\x7d')
    (balanced : Balanced depth (before ++ (mid ++ after))) : Balanced depth (before ++ after) := by
  refine ⟨?_, nested_cut level balanced.nested⟩
  have closed := balanced.closed
  simp only [List.count_append] at closed ⊢
  omega

/-- A balanced part can be put in anywhere. -/
theorem nested_insert (balanced : Balanced 0 mid) (nested : Nested depth (before ++ after)) :
    Nested depth (before ++ (mid ++ after)) := by
  have level := balanced.closed
  rw [nested_append] at nested ⊢
  refine ⟨nested.1, fun front within => ?_⟩
  obtain ⟨rest, split⟩ := within
  have outer := nested.2 [] List.nil_prefix
  rcases List.append_eq_append_iff.1 split with ⟨more, rfl, -⟩ | ⟨more, rfl, same⟩
  · have inner := balanced.nested front (List.prefix_append _ _)
    simp only [List.count_append, List.count_nil] at outer ⊢
    omega
  · have beyond := nested.2 more ⟨rest, same.symm⟩
    simp only [List.count_append] at beyond ⊢
    omega

end EntityGraph.Schema
