import EntityGraph.Proofs.Segments
import Mathlib.Data.List.Basic

/-!
The last word of a name: what snake case cuts off at its end. A word is a run of capitals and then
one of small letters and digits; if a small letter follows, only one capital stands in front of it.
A name that ends in a letter or a digit consists of a front and its last word, and the front keeps
its segments whatever word takes the place of the last one.
-/
namespace EntityGraph.Name

/-! ## Words in which the case does not turn -/

/-- Capitals and small letters that are a word together. -/
structure Solid (capitals small : List Char) : Prop where
  upper : Capital capitals
  lower : Small small
  acronym : 2 ≤ capitals.length → ∀ c ∈ small.head?, c.isLower = false

/-- Where no small letter is next, capitals stay together. -/
theorem not_caseTurn {before : Option Char} {a : Char} (upper : a.isUpper = true) (b : Char)
    {after : Option Char} (next : after.any Char.isLower = false) :
    caseTurn before a b after = false := by
  simp [caseTurn, isLower_of_isUpper upper, isDigit_of_isUpper upper, next]

theorem head_capital_append {capitals small : List Char} (capital : Capital capitals)
    (digits : ∀ c ∈ small.head?, c.isLower = false) :
    (capitals ++ small).head?.any Char.isLower = false := by
  cases capitals with
  | nil => cases small <;> simp_all
  | cons c capitals => simp [isLower_of_isUpper (capital c List.mem_cons_self)]

theorem segmentsFrom_small {small : List Char} (are : Small small) (a : Char) (done : List Char) :
    segmentsFrom caseTurn (a :: done) small = [(a :: done).reverse ++ small] := by
  induction small generalizing a done with
  | nil => simp [segmentsFrom]
  | cons b small ih =>
    obtain ⟨part, upper⟩ := are b List.mem_cons_self
    have rest := ih (fun c mem => are c (List.mem_cons_of_mem _ mem)) b (a :: done)
    simp [segmentsFrom, part, caseTurn, upper, rest]

theorem segmentsFrom_solid {capitals small : List Char} {a : Char} (upper : a.isUpper = true)
    (capital : Capital capitals) (are : Small small)
    (acronym : capitals ≠ [] → ∀ c ∈ small.head?, c.isLower = false) (done : List Char) :
    segmentsFrom caseTurn (a :: done) (capitals ++ small) =
      [(a :: done).reverse ++ (capitals ++ small)] := by
  induction capitals generalizing a done with
  | nil => exact segmentsFrom_small are a done
  | cons b capitals ih =>
    obtain ⟨upper', capital'⟩ := List.forall_mem_cons.1 capital
    have acronym' := acronym (List.cons_ne_nil _ _)
    have unturned : caseTurn done.head? a b (capitals ++ small).head? = false :=
      not_caseTurn upper b (head_capital_append capital' acronym')
    have rest := ih upper' capital' (fun _ => acronym') (a :: done)
    simp only [List.cons_append, segmentsFrom, isPart_of_isUpper upper', unturned, rest]
    simp

/-- A word is its only segment. -/
theorem segments_solid {capitals small : List Char} (solid : Solid capitals small)
    (filled : capitals ++ small ≠ []) :
    segments caseTurn (capitals ++ small) = [capitals ++ small] := by
  cases capitals with
  | nil =>
    cases small with
    | nil => exact absurd rfl filled
    | cons b small =>
      have part := (solid.lower b List.mem_cons_self).1
      have rest := segmentsFrom_small
        (fun c mem => solid.lower c (List.mem_cons_of_mem _ mem)) b []
      simpa [segments_cons_part part] using rest
  | cons b capitals =>
    have upper := solid.upper b List.mem_cons_self
    have rest := segmentsFrom_solid upper
      (fun c mem => solid.upper c (List.mem_cons_of_mem _ mem)) solid.lower
      (fun more => solid.acronym (Nat.succ_le_succ (List.length_pos_of_ne_nil more))) []
    simpa [segments_cons_part (isPart_of_isUpper upper)] using rest

theorem segments_small {small : List Char} (are : Small small) (filled : small ≠ []) :
    segments caseTurn small = [small] := by
  have solid : Solid [] small := ⟨by simp [Capital], are, by simp⟩
  exact segments_solid solid filled

/-- Words that are joined with a separator are cut apart again. -/
theorem segments_join_small {separator : Char} (none : isPart separator = false)
    {ws : List (List Char)} (words : ∀ w ∈ ws, w ≠ [] ∧ Small w) :
    segments caseTurn (join [separator] ws) = ws :=
  segments_join_of_alone cased_caseTurn none fun w mem =>
    segments_small (words w mem).2 (words w mem).1

/-! ## Last words -/

/-- The last word of a name. -/
def lastWord (cs : List Char) : List Char :=
  (segments caseTurn cs).getLastD []

/-- A name consists of `front` and of the last word. -/
structure LastWord (front word : List Char) : Prop where
  solid : ∃ capitals small, Solid capitals small ∧ word = capitals ++ small
  filled : word ≠ []
  divided : Divided front word

theorem LastWord.segments_eq {front word : List Char} (last : LastWord front word) :
    segments caseTurn (front ++ word) = segments caseTurn front ++ [word] := by
  obtain ⟨capitals, small, solid, rfl⟩ := last.solid
  rw [segments_append cased_caseTurn last.divided, segments_solid solid last.filled]

theorem LastWord.lastWord_eq {front word : List Char} (last : LastWord front word) :
    lastWord (front ++ word) = word := by
  rw [lastWord, last.segments_eq, List.getLastD_concat]

theorem LastWord.parts {front word : List Char} (last : LastWord front word) :
    ∀ c ∈ word, isPart c = true := by
  obtain ⟨capitals, small, solid, rfl⟩ := last.solid
  intro c mem
  rcases List.mem_append.1 mem with mem | mem
  · exact isPart_of_isUpper (solid.upper c mem)
  · exact (solid.lower c mem).1

theorem divided_nil (y : List Char) : Divided [] y := by
  intro a last
  cases last

/-- A letter in front of a word belongs to it, unless the case turns. -/
private theorem exists_solid_cons {c : Char} (part : isPart c = true) {capitals small : List Char}
    (solid : Solid capitals small)
    (same : ∀ b rest, capitals ++ small = b :: rest → caseTurn none c b rest.head? = false) :
    ∃ capitals' small', Solid capitals' small' ∧
      c :: (capitals ++ small) = capitals' ++ small' := by
  cases capitals with
  | nil =>
    cases upper : c.isUpper with
    | true =>
      refine ⟨[c], small, ⟨by simpa [Capital] using upper, solid.lower, ?_⟩, rfl⟩
      intro two
      simp at two
    | false =>
      refine ⟨[], c :: small, ⟨by simp [Capital], ?_, by simp⟩, rfl⟩
      simpa [Small, part, upper] using solid.lower
  | cons b capitals =>
    have upper := solid.upper b List.mem_cons_self
    have unturned := same b _ rfl
    simp only [caseTurn, upper, Bool.true_and, Bool.or_eq_false_iff] at unturned
    have upper' : c.isUpper = true := by
      rcases isPart_iff.1 part with h | h | h <;> simp_all
    refine ⟨c :: b :: capitals, small, ⟨?_, solid.lower, ?_⟩, rfl⟩
    · simpa [Capital, upper'] using solid.upper
    · intro _ d first
      cases capitals with
      | nil =>
        have unturned : (c.isUpper && small.head?.any Char.isLower) = false := unturned.2
        simpa [upper', Option.mem_def.1 first] using unturned
      | cons e capitals => exact solid.acronym (by simp) d first

/-- A name that ends in a letter or a digit has a last word. -/
theorem exists_lastWord {cs : List Char} {c : Char} (last : cs.getLast? = some c)
    (part : isPart c = true) : ∃ front word, cs = front ++ word ∧ LastWord front word := by
  induction cs with
  | nil => cases last
  | cons a cs ih =>
    cases cs with
    | nil =>
      obtain rfl : a = c := by simpa using last
      have none : Solid [] [] := ⟨by simp [Capital], by simp [Small], by simp⟩
      obtain ⟨capitals, small, solid, eq⟩ := exists_solid_cons part none (by simp)
      exact ⟨[], [a], rfl, ⟨_, _, solid, eq⟩, List.cons_ne_nil _ _, divided_nil _⟩
    | cons b cs =>
      obtain ⟨front, word, split, word'⟩ := ih (by simpa using last)
      rw [split]
      cases front with
      | cons d front =>
        refine ⟨a :: d :: front, word, rfl, word'.solid, word'.filled, ?_⟩
        intro e at_end
        exact word'.divided e (by simpa using at_end)
      | nil =>
        -- The letter `a` is either a front of its own or the first one of the word.
        by_cases divided : Divided [a] word
        · exact ⟨[a], word, rfl, word'.solid, word'.filled, divided⟩
        · obtain ⟨capitals, small, solid, rfl⟩ := word'.solid
          simp only [Divided, List.getLast?_singleton, Option.some.injEq, forall_eq',
            Classical.not_imp, not_exists, not_and, Bool.not_eq_true] at divided
          obtain ⟨capitals', small', solid', eq⟩ := exists_solid_cons divided.1 solid divided.2
          exact ⟨[], a :: (capitals ++ small), rfl, ⟨_, _, solid', eq⟩, List.cons_ne_nil _ _,
            divided_nil _⟩

theorem exists_lastWord_of_parts {cs : List Char} (filled : cs ≠ [])
    (parts : ∀ c ∈ cs, isPart c = true) : ∃ front word, cs = front ++ word ∧ LastWord front word :=
  exists_lastWord (List.getLast?_eq_some_getLast filled) (parts _ (List.getLast_mem filled))

end EntityGraph.Name
