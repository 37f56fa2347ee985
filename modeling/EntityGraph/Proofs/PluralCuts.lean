import EntityGraph.Proofs.Plurals

/-!
How a plural is cut. A plural usually has the words of the name, the last one changed. There are two
exceptions. An acronym is cut in two where the small letters of the ending come behind its last
capital: `APIs` is cut into `AP` and `Is`. And an ending that takes the place of a whole word, as in
the plural of `PlanF`, goes to the word in front of it.
-/
namespace EntityGraph.Name

/-- Two capitals or more stand at the end. -/
def endsInCapitals (w : List Char) : Bool :=
  match w.reverse with
  | b :: a :: _ => a.isUpper && b.isUpper
  | _ => false

theorem endsInCapitals_concat (x : List Char) (a b : Char) :
    endsInCapitals (x ++ [a, b]) = (a.isUpper && b.isUpper) := by
  simp [endsInCapitals]

theorem endsInCapitals_of_capital {w : List Char} (capital : Capital w) (two : 2 ≤ w.length) :
    endsInCapitals w = true := by
  rcases List.eq_nil_or_concat w with rfl | ⟨w, b, rfl⟩
  · simp at two
  · rcases List.eq_nil_or_concat w with rfl | ⟨w, a, rfl⟩
    · simp at two
    · simp only [List.concat_eq_append, List.append_assoc, List.singleton_append] at *
      rw [endsInCapitals_concat, capital a (by simp), capital b (by simp)]
      rfl

theorem exists_of_endsInCapitals {w : List Char} (ends : endsInCapitals w = true) :
    ∃ x a b, w = x ++ [a, b] ∧ a.isUpper = true ∧ b.isUpper = true := by
  rcases List.eq_nil_or_concat w with rfl | ⟨w, b, rfl⟩
  · cases ends
  · rcases List.eq_nil_or_concat w with rfl | ⟨w, a, rfl⟩
    · cases ends
    · simp only [List.concat_eq_append, List.append_assoc, List.singleton_append] at *
      rw [endsInCapitals_concat, Bool.and_eq_true] at ends
      exact ⟨w, a, b, rfl, ends⟩

namespace LastWord

variable {front word : List Char}

/-- A capital and small letters are a word, whatever is in front of them. -/
theorem of_capitalized {c d : Char} {small : List Char} (upper : c.isUpper = true)
    (lower : d.isLower = true) (are : Small (d :: small)) (front : List Char) :
    LastWord front (c :: d :: small) where
  solid := ⟨[c], d :: small, ⟨by simpa [Capital] using upper, are, by simp⟩, rfl⟩
  filled := List.cons_ne_nil _ _
  divided _ _ part := ⟨c, d :: small, rfl, caseTurn_capitalized part upper lower⟩

/-- A word in front of which the case turns begins with a capital. -/
theorem isUpper_of_part {b : Char} {rest : List Char} (last : LastWord front (b :: rest)) {a : Char}
    (at_end : front.getLast? = some a) (part : isPart a = true) : b.isUpper = true := by
  obtain ⟨b, rest, eq, turns⟩ := last.divided a at_end part
  obtain ⟨rfl, rfl⟩ := List.cons_eq_cons.1 eq
  exact isUpper_of_caseTurn turns

/-- A word with a plural of its own gives way to it. -/
theorem irregular (last : LastWord front word) {plural : List Char}
    (found : irregularPlural? (lower word) = some plural) : LastWord front (pluralWord word) := by
  obtain ⟨c, rest, p, behind, rfl, rfl, eq⟩ := pluralWord_irregular found
  have letters := (irregular_of_eq_some found).letters'
  have p_lower := letters p List.mem_cons_self
  obtain ⟨d, behind, rfl⟩ : ∃ d more, behind = d :: more :=
    List.exists_cons_of_length_pos (Nat.le_of_succ_le_succ (irregular_of_eq_some found).long)
  have are : Small (d :: behind) :=
    small_of_isLower fun e mem => letters e (List.mem_cons_of_mem _ mem)
  rw [eq]
  cases upper : c.isUpper with
  | true => exact of_capitalized (isUpper_toUpper p_lower) (letters d (by simp)) are front
  | false =>
    refine ⟨⟨[], p :: d :: behind, ⟨by simp [Capital], small_of_isLower letters, by simp⟩, rfl⟩,
      List.cons_ne_nil _ _, fun a at_end part => ?_⟩
    simp [last.isUpper_of_part at_end part] at upper

/-- Behind a word that gets shorter or stays as it is, and that does not end in capitals then, small
    letters belong to it. -/
private theorem append_take (last : LastWord front word) {n : Nat} (kept : word.take n ≠ [])
    (ends : endsInCapitals (word.take n) = false) {c : Char} {small : List Char}
    (lower : c.isLower = true) (are : Small (c :: small)) :
    LastWord front (word.take n ++ c :: small) := by
  refine ⟨?_, by simp, fun a at_end part => ?_⟩
  · obtain ⟨capitals, others, solid, rfl⟩ := last.solid
    have capital : Capital (capitals.take n) :=
      fun d mem => solid.upper d (List.mem_of_mem_take mem)
    rw [List.take_append] at *
    refine ⟨capitals.take n, others.take (n - capitals.length) ++ c :: small, ⟨capital, ?_, ?_⟩,
      List.append_assoc _ _ _⟩
    · intro d mem
      rcases List.mem_append.1 mem with mem | mem
      · exact solid.lower d (List.mem_of_mem_take mem)
      · exact are d mem
    · intro two d first
      cases left : others.take (n - capitals.length) with
      | nil => simp [left, endsInCapitals_of_capital capital two] at ends
      | cons e left' =>
        obtain rfl : e = d := by simpa [left] using first
        have head := congrArg List.head? left
        rw [List.head?_take, List.head?_cons] at head
        split_ifs at head
        exact solid.acronym (Nat.le_trans two (List.length_take_le' n capitals)) e head
  · obtain ⟨b, rest, rfl, turns⟩ := last.divided a at_end part
    cases n with
    | zero => simp at kept
    | succ n =>
      refine ⟨b, rest.take n ++ c :: small, by simp, ?_⟩
      cases n with
      | zero => exact caseTurn_capitalized part (isUpper_of_caseTurn turns) lower
      | succ n => cases rest with
        | nil => exact caseTurn_capitalized part (isUpper_of_caseTurn turns) lower
        | cons d rest => exact turns

/-- What is left of a word is made of capitals if it ends in one. -/
private theorem capital_of_take {capitals others x : List Char} (solid : Solid capitals others)
    {n : Nat} {u : Char} (split : (capitals ++ others).take n = x ++ [u])
    (upper : u.isUpper = true) : Capital (x ++ [u]) := by
  rw [List.take_append] at split
  rcases List.eq_nil_or_concat (others.take (n - capitals.length)) with none | ⟨y, d, some⟩
  · rw [none, List.append_nil] at split
    exact split ▸ fun d mem => solid.upper d (List.mem_of_mem_take mem)
  · -- The small letters reach the end, but a capital stands there.
    have at_end := congrArg List.getLast? split
    rw [some, List.concat_eq_append, ← List.append_assoc, List.getLast?_concat] at at_end
    obtain rfl : d = u := by simpa using at_end
    have small := solid.lower d (List.mem_of_mem_take (i := n - capitals.length) (by simp [some]))
    simp [upper] at small

/-- Small letters behind capitals begin a word with the last one of them. -/
private theorem append_acronym (last : LastWord front word) {n : Nat}
    (ends : endsInCapitals (word.take n) = true) {c : Char} {small : List Char}
    (lower : c.isLower = true) (are : Small (c :: small)) :
    ∃ capitals u, word.take n = capitals ++ [u] ∧ LastWord front capitals ∧
      LastWord (front ++ capitals) (u :: c :: small) := by
  obtain ⟨y, a, u, split, upper, upper'⟩ := exists_of_endsInCapitals ends
  refine ⟨y ++ [a], u, by simp [split], ?_, of_capitalized upper' lower are _⟩
  obtain ⟨capitals, others, solid, rfl⟩ := last.solid
  have all : Capital (y ++ [a] ++ [u]) := capital_of_take solid (by simpa using split) upper'
  have capital : Capital (y ++ [a]) := fun d mem => all d (List.mem_append_left _ mem)
  refine ⟨⟨y ++ [a], [], ⟨capital, by simp [Small], by simp⟩, by simp⟩, by simp, ?_⟩
  intro e at_end part
  obtain ⟨b, rest, eq, turns⟩ := last.divided e at_end part
  have whole : b :: rest = y ++ [a, u] ++ (capitals ++ others).drop n := by
    rw [← eq, ← split, List.take_append_drop]
  cases y with
  | nil =>
    obtain ⟨rfl, rfl⟩ := List.cons_eq_cons.1 whole
    refine ⟨b, [], rfl, ?_⟩
    rw [cased_caseTurn.sees none e b _ none (by simp [isLower_of_isUpper upper'])] at turns
    exact turns
  | cons d y =>
    obtain ⟨rfl, rfl⟩ := List.cons_eq_cons.1 whole
    refine ⟨b, y ++ [a], rfl, ?_⟩
    cases y <;> exact turns

/-- The plural is the last word, unless what stays of the word is empty or ends in capitals. -/
theorem append_stem (last : LastWord front word) (changed : ending word ≠ [])
    (kept : stem word ≠ []) (ends : endsInCapitals (stem word) = false) :
    LastWord front (stem word ++ ending word) := by
  obtain ⟨c, small, eq⟩ := List.exists_cons_of_ne_nil changed
  rw [eq]
  exact last.append_take kept ends (isLower_of_ending c (eq ▸ List.mem_cons_self))
    (eq ▸ small_of_isLower isLower_of_ending)

/-- The plural of an acronym is cut in front of the last capital that stays. -/
theorem append_acronym_ending (last : LastWord front word) (changed : ending word ≠ [])
    (ends : endsInCapitals (stem word) = true) :
    ∃ capitals u, stem word = capitals ++ [u] ∧ LastWord front capitals ∧
      LastWord (front ++ capitals) (u :: ending word) := by
  obtain ⟨c, small, eq⟩ := List.exists_cons_of_ne_nil changed
  rw [eq]
  exact last.append_acronym ends (isLower_of_ending c (eq ▸ List.mem_cons_self))
    (eq ▸ small_of_isLower isLower_of_ending)

/-- Small letters at the end belong to the last word, and so does a letter in front of them. -/
theorem of_append_small (last : LastWord front word) {x small : List Char} (are : Small small)
    (filled : small ≠ []) (split : x ++ small = front ++ word) :
    ∃ z, word = z ++ small ∧ x = front ++ z ∧
      ∀ a, x.getLast? = some a → isPart a = true → z ≠ [] := by
  obtain ⟨c, small, rfl⟩ := List.exists_cons_of_ne_nil filled
  rcases List.append_eq_append_iff.1 split with ⟨as, rfl, eq⟩ | ⟨z, rfl, rfl⟩
  · rcases List.eq_nil_or_concat as with rfl | ⟨as, a, rfl⟩
    · obtain rfl : c :: small = word := by simpa using eq
      refine ⟨[], rfl, by simp, fun a at_end part => ?_⟩
      have upper := last.isUpper_of_part (by simpa using at_end) part
      simp [(are c List.mem_cons_self).2] at upper
    · -- A word cannot begin with one of the small letters behind another one.
      rw [List.concat_eq_append] at *
      have part := (are a (by simp [eq])).1
      obtain ⟨b, rest, rfl⟩ := List.exists_cons_of_ne_nil last.filled
      have upper := last.isUpper_of_part (by simp) part
      simp [(are b (by simp [eq])).2] at upper
  · refine ⟨z, rfl, rfl, fun a at_end part none => ?_⟩
    subst none
    have upper := last.isUpper_of_part (by simpa using at_end) part
    simp [(are c List.mem_cons_self).2] at upper

end LastWord

end EntityGraph.Name
