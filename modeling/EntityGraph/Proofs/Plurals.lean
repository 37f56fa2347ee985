import EntityGraph.Proofs.PluralPattern

/-!
Plurals of words and of names. Case has no part in how a word is made plural, and the plural of a
name is the plural of its last word behind the rest of the name. The rule for plurals cuts names in
another way than snake case does, namely in front of the digits of an acronym, but that makes no
difference to the result.
-/
namespace EntityGraph.Name

/-! ## Words with a plural of their own -/

/-- What all words with a plural of their own have in common. -/
structure Irregular (w plural : List Char) : Prop where
  letters : ∀ c ∈ w, c.isLower = true
  three : 3 ≤ w.length
  letters' : ∀ c ∈ plural, c.isLower = true
  long : 2 ≤ plural.length
  /-- The plural is none of the words. -/
  settled : irregularPlural? plural = none
  /-- Unless it ends in `s`, the plural is a word that would get one more ending. -/
  unchanged : (pluralEnding plural.reverse).2 = [] ↔ plural.getLast? = some 's'
  /-- None of the words ends in `es`. -/
  notPlural : w.reverse.take 2 ≠ ['s', 'e']

private theorem irregularPlurals_all : ∀ e ∈ irregularPlurals,
    e.1.toList.all Char.isLower = true ∧ 3 ≤ e.1.toList.length ∧
    e.2.toList.all Char.isLower = true ∧
    2 ≤ e.2.toList.length ∧ irregularPlural? e.2.toList = none ∧
    ((pluralEnding e.2.toList.reverse).2 = [] ↔ e.2.toList.getLast? = some 's') ∧
    e.1.toList.reverse.take 2 ≠ ['s', 'e'] := by
  decide +kernel

theorem irregular_of_eq_some {w plural : List Char} (found : irregularPlural? w = some plural) :
    Irregular w plural := by
  obtain ⟨text, listed, rfl⟩ := Option.map_eq_some_iff.1 found
  obtain ⟨front, back, split, -⟩ := List.lookup_eq_some_iff.1 listed
  obtain ⟨letters, three, letters', long, settled, unchanged, notPlural⟩ :=
    irregularPlurals_all (String.ofList w, text) (by simp [split])
  rw [String.toList_ofList] at letters three notPlural
  exact ⟨List.all_eq_true.1 letters, three, List.all_eq_true.1 letters', long, settled, unchanged,
    notPlural⟩

/-! ## Endings -/

/-- What stays of a word in a regular plural. -/
def stem (w : List Char) : List Char :=
  w.take (w.length - (pluralEnding (lower w).reverse).1)

/-- What a regular plural puts behind it. -/
def ending (w : List Char) : List Char :=
  (pluralEnding (lower w).reverse).2

theorem pluralWord_regular {w : List Char} (regular : irregularPlural? (lower w) = none) :
    pluralWord w = stem w ++ ending w := by
  rw [pluralWord, regular]
  rfl

theorem pluralWord_irregular {w plural : List Char}
    (found : irregularPlural? (lower w) = some plural) :
    ∃ c rest p ending, w = c :: rest ∧ plural = p :: ending ∧
      pluralWord w = (if c.isUpper then p.toUpper else p) :: ending := by
  have irregular := irregular_of_eq_some found
  obtain ⟨p, ending, rfl⟩ : ∃ p ending, plural = p :: ending :=
    List.exists_cons_of_length_pos (Nat.lt_of_lt_of_le Nat.two_pos irregular.long)
  cases w with
  | nil =>
    have none : irregularPlural? (lower []) = none := by decide +kernel
    rw [none] at found
    cases found
  | cons c rest => exact ⟨c, rest, p, ending, rfl, rfl, by rw [pluralWord, found]⟩

/-- All that can become of the end of a word. -/
def endings : List (Nat × List Char) :=
  [(0, []), (0, ['s']), (0, ['e', 's']), (1, ['i', 'e', 's']), (1, ['v', 'e', 's']),
    (2, ['v', 'e', 's'])]

theorem pluralEnding_mem (reversed : List Char) : pluralEnding reversed ∈ endings := by
  fun_cases pluralEnding reversed <;> simp [endings]

/-- No more letters are dropped than there are. -/
theorem pluralEnding_le (reversed : List Char) : (pluralEnding reversed).1 ≤ reversed.length := by
  fun_cases pluralEnding reversed <;> simp

/-- The ending depends on the last two letters only. -/
theorem pluralEnding_cons_cons (a b : Char) (x y : List Char) :
    pluralEnding (a :: b :: x) = pluralEnding (a :: b :: y) := by
  generalize split : a :: b :: x = w
  fun_cases pluralEnding w <;> cases split <;> simp_all [pluralEnding]

theorem pluralEnding_of_not_isLower {d : Char} (other : d.isLower = false) (x : List Char) :
    pluralEnding (d :: x) = (0, ['s']) := by
  unfold pluralEnding
  split <;> simp_all

/-- A digit or a separator keeps what is in front of it from having a part in the ending. -/
theorem pluralEnding_append {d : Char} (other : d.isLower = false) (reversed x : List Char) :
    pluralEnding (reversed ++ d :: x) = pluralEnding (reversed ++ [d]) := by
  match reversed with
  | [] =>
    exact (pluralEnding_of_not_isLower other x).trans (pluralEnding_of_not_isLower other []).symm
  | [a] => exact pluralEnding_cons_cons a d x []
  | a :: b :: reversed => exact pluralEnding_cons_cons a b _ _

theorem isLower_of_ending {w : List Char} : ∀ c ∈ ending w, c.isLower = true := by
  have all : ∀ e ∈ endings, e.2.all Char.isLower = true := by decide +kernel
  exact List.all_eq_true.1 (all _ (pluralEnding_mem _))

theorem small_of_isLower {w : List Char} (letters : ∀ c ∈ w, c.isLower = true) : Small w :=
  fun c mem => ⟨isPart_iff.2 (.inr (.inl (letters c mem))), isUpper_of_isLower (letters c mem)⟩

/-- Nothing is dropped where nothing or an `s` is put in its place. -/
theorem stem_eq_self {w : List Char} (short : ending w = [] ∨ ending w = ['s']) : stem w = w := by
  have nothing : (pluralEnding (lower w).reverse).1 = 0 := by
    have all : ∀ e ∈ endings, e.2 = [] ∨ e.2 = ['s'] → e.1 = 0 := by decide +kernel
    exact all _ (pluralEnding_mem _) short
  rw [stem, nothing, Nat.sub_zero, List.take_length]

/-- A regular plural that is not the word itself is longer. -/
theorem length_stem_ending {w : List Char} (changed : ending w ≠ []) :
    w.length < (stem w ++ ending w).length := by
  have all : ∀ e ∈ endings, e.2 ≠ [] → e.1 < e.2.length := by decide +kernel
  have more := all _ (pluralEnding_mem (lower w).reverse) changed
  have le := pluralEnding_le (lower w).reverse
  simp only [List.length_reverse, length_lower] at le
  simp only [stem, ending, List.length_append, List.length_take]
  omega

/-! ## Case -/

@[simp] theorem ending_lower (w : List Char) : ending (lower w) = ending w := by
  simp [ending]

@[simp] theorem stem_lower (w : List Char) : stem (lower w) = lower (stem w) := by
  simp only [stem, lower_lower, length_lower]
  rw [lower, lower, List.map_take]

theorem lower_eq_self {w : List Char} (letters : ∀ c ∈ w, c.isLower = true) : lower w = w :=
  (small_of_isLower letters).lower_eq

theorem lower_pluralWord_irregular {w plural : List Char}
    (found : irregularPlural? (lower w) = some plural) : lower (pluralWord w) = plural := by
  obtain ⟨c, rest, p, ending, rfl, rfl, eq⟩ := pluralWord_irregular found
  have letters := (irregular_of_eq_some found).letters'
  have p_lower := letters p List.mem_cons_self
  have rest_lower := lower_eq_self fun c mem => letters c (List.mem_cons_of_mem _ mem)
  rw [eq]
  split_ifs
  · rw [← rest_lower, lower, List.map_cons, toLower_toUpper p_lower, ← lower, lower_lower]
  · exact lower_eq_self letters

/-- Case has no part in how a word is made plural. -/
theorem pluralWord_lower (w : List Char) : pluralWord (lower w) = lower (pluralWord w) := by
  cases found : irregularPlural? (lower w) with
  | none =>
    rw [pluralWord_regular found, pluralWord_regular (by rwa [lower_lower]), stem_lower,
      ending_lower, lower_append, lower_eq_self isLower_of_ending]
  | some plural =>
    obtain ⟨c, rest, p, ending, eq, eq', spelled⟩ :=
      pluralWord_irregular (w := lower w) (by rwa [lower_lower])
    have small : c.isUpper = false := by
      obtain ⟨d, -, rfl⟩ := List.mem_map.1 (eq ▸ List.mem_cons_self : c ∈ lower w)
      exact isUpper_toLower d
    rw [spelled, small, lower_pluralWord_irregular found, eq']
    rfl

/-- Which words stay as they are in the plural. -/
theorem lower_pluralWord_eq_iff {w : List Char} :
    lower (pluralWord w) = lower w ↔ irregularPlural? (lower w) = none ∧ ending w = [] := by
  cases found : irregularPlural? (lower w) with
  | none =>
    rw [pluralWord_regular found]
    constructor
    · intro same
      by_contra changed
      have longer := length_stem_ending (w := w) (by simpa using changed)
      have length := congrArg List.length same
      simp only [length_lower] at length
      omega
    · rintro ⟨-, nothing⟩
      rw [nothing, stem_eq_self (.inl nothing), List.append_nil]
  | some plural =>
    simp only [reduceCtorEq, false_and, iff_false, lower_pluralWord_irregular found]
    rintro rfl
    simp [(irregular_of_eq_some found).settled] at found

theorem pluralWord_eq_self {w : List Char} (regular : irregularPlural? (lower w) = none)
    (nothing : ending w = []) : pluralWord w = w := by
  rw [pluralWord_regular regular, nothing, stem_eq_self (.inl nothing), List.append_nil]

/-! ## Letters -/

theorem pluralWord_ne_nil (w : List Char) : pluralWord w ≠ [] := by
  cases found : irregularPlural? (lower w) with
  | none =>
    rw [pluralWord_regular found]
    by_cases nothing : ending w = []
    · have filled : w ≠ [] := by
        rintro rfl
        cases nothing
      rw [stem_eq_self (.inl nothing)]
      exact List.append_ne_nil_of_left_ne_nil filled _
    · exact List.append_ne_nil_of_right_ne_nil _ nothing
  | some plural =>
    obtain ⟨c, rest, p, ending, -, -, eq⟩ := pluralWord_irregular found
    rw [eq]
    exact List.cons_ne_nil _ _

theorem isPart_pluralWord {w : List Char} (parts : ∀ c ∈ w, isPart c = true) :
    ∀ c ∈ pluralWord w, isPart c = true := by
  intro c mem
  cases found : irregularPlural? (lower w) with
  | none =>
    rw [pluralWord_regular found] at mem
    rcases List.mem_append.1 mem with mem | mem
    · exact parts c (List.mem_of_mem_take mem)
    · exact (small_of_isLower isLower_of_ending c mem).1
  | some plural =>
    have mem' : c.toLower ∈ plural :=
      lower_pluralWord_irregular found ▸ List.mem_map_of_mem mem
    have letter := (irregular_of_eq_some found).letters' _ mem'
    rw [← isPart_toLower]
    exact isPart_iff.2 (.inr (.inl letter))

/-! ## Names -/

/-- The plural of a name is not empty, even if nothing in the name is a letter. -/
theorem plural_ne_empty {s : String} (filled : s ≠ "") : plural s ≠ "" := by
  have chars : pluralChars s.toList ≠ [] := by
    rw [pluralChars]
    split
    · rename_i none
      exact absurd (String.toList_eq_nil_iff.1 (List.getLast?_eq_none_iff.1 none)) filled
    · split
      · exact List.append_ne_nil_of_right_ne_nil _ (pluralWord_ne_nil _)
      · exact List.append_ne_nil_of_right_ne_nil _ (List.cons_ne_nil _ _)
  intro empty
  exact chars (by simpa [plural] using congrArg String.toList empty)

/-- How the rule for plurals cuts a word: in front of the digits of an acronym, or not at all. -/
private theorem pluralWords_solid {capitals small : List Char} (solid : Solid capitals small)
    (filled : capitals ++ small ≠ []) :
    segments pluralTurn (capitals ++ small) = [capitals ++ small] ∨
      (∃ d rest, small = d :: rest ∧ d.isDigit = true) ∧
        segments pluralTurn (capitals ++ small) = [capitals, small] := by
  have whole {b : Char} {rest : List Char} (part : isPart b = true) (are : Small rest) :
      segments pluralTurn (b :: rest) = [b :: rest] := by
    have ends : ∀ c ∈ ([] : List Char).head?, isPart c = true → c.isUpper = true := by simp
    have run := pluralFrom_small are ends part [] fun _ => ⟨rfl, fun _ => rfl⟩
    rw [segments_cons_part part]
    simpa [segments, segmentsFrom] using run
  have alone : ∀ b rest, small = b :: rest → segments pluralTurn small = [small] := by
    rintro b rest rfl
    exact whole (solid.lower b List.mem_cons_self).1
      fun c mem => solid.lower c (List.mem_cons_of_mem _ mem)
  rcases capitals with - | ⟨b, - | ⟨c, capitals⟩⟩
  · obtain ⟨b, rest, rfl⟩ := List.exists_cons_of_ne_nil filled
    exact .inl (alone b rest rfl)
  · exact .inl (whole (isPart_of_isUpper (solid.upper b List.mem_cons_self)) solid.lower)
  · obtain ⟨upper, capital⟩ := List.forall_mem_cons.1 solid.upper
    have digits : ∀ e ∈ small.head?, e.isDigit = true := by
      intro e first
      have mem := List.mem_of_mem_head? first
      exact isDigit_of_isPart (solid.lower e mem).1 (solid.lower e mem).2
        (solid.acronym (by simp) e first)
    have closes : closesCapitals small = true := by
      cases small with
      | nil => rfl
      | cons d rest => simp [closesCapitals, digits d rfl]
    have run := pluralFrom_acronym capital closes upper [] (.inl (List.cons_ne_nil _ _))
    have cut : segments pluralTurn (b :: c :: capitals ++ small) =
        (b :: c :: capitals) :: segments pluralTurn small := by
      simpa [segments_cons_part (isPart_of_isUpper upper)] using run
    cases small with
    | nil => exact .inl (by simpa [segments, segmentsFrom] using cut)
    | cons d rest =>
      exact .inr ⟨⟨d, rest, rfl, digits d rfl⟩, by rw [cut, alone d rest rfl]⟩

/-- A word with a plural of its own is made of letters. -/
theorem regular_of_mem {w : List Char} {d : Char} (mem : d ∈ w) (upper : d.isUpper = false)
    (small : d.isLower = false) : irregularPlural? (lower w) = none := by
  cases found : irregularPlural? (lower w) with
  | none => rfl
  | some plural =>
    have letter := (irregular_of_eq_some found).letters d.toLower (List.mem_map_of_mem mem)
    rw [toLower_of_not_isUpper upper, small] at letter
    cases letter

/-- What is in front of a digit or a separator is not touched. -/
theorem pluralWord_append {d : Char} (upper : d.isUpper = false) (small : d.isLower = false)
    (front rest : List Char) : pluralWord (front ++ d :: rest) = front ++ pluralWord (d :: rest) := by
  have same : pluralEnding (lower (front ++ d :: rest)).reverse =
      pluralEnding (lower (d :: rest)).reverse := by
    have spelled : (lower (d :: rest)).reverse = (lower rest).reverse ++ [d] := by
      simp [lower, toLower_of_not_isUpper upper]
    rw [lower_append, List.reverse_append, spelled, List.append_assoc, List.singleton_append]
    exact pluralEnding_append small _ _
  have le := pluralEnding_le (lower (d :: rest)).reverse
  rw [List.length_reverse, length_lower] at le
  rw [pluralWord_regular (regular_of_mem (by simp) upper small),
    pluralWord_regular (regular_of_mem List.mem_cons_self upper small)]
  simp only [stem, ending, same]
  rw [List.length_append, Nat.add_sub_assoc le, List.take_length_add_append, List.append_assoc]

/-- The plural of a name that ends in its last word. -/
theorem pluralChars_append {front word : List Char}
    (last : (pluralWords (front ++ word)).getLast? = some word) :
    pluralChars (front ++ word) = front ++ pluralWord word := by
  obtain ⟨filled, parts⟩ := isPart_of_segments (List.mem_of_getLast? last)
  have at_end := List.getLast?_eq_some_getLast filled
  have part := parts _ (List.getLast_mem filled)
  rw [pluralChars, List.getLast?_append, at_end, Option.some_or]
  simp only [part, if_true, List.getLastD_eq_getLast?, last, Option.getD_some, List.length_append,
    Nat.add_sub_cancel, List.take_left]

/-- The plural of a name is made by its last word alone. -/
theorem LastWord.plural_eq {front word : List Char} (last : LastWord front word) :
    pluralChars (front ++ word) = front ++ pluralWord word := by
  have words : pluralWords (front ++ word) = pluralWords front ++ segments pluralTurn word :=
    segments_append cased_pluralTurn last.divided
  obtain ⟨capitals, small, solid, rfl⟩ := last.solid
  rcases pluralWords_solid solid last.filled with whole | ⟨⟨d, rest, rfl, digit⟩, cut⟩
  · exact pluralChars_append (by rw [words, whole, List.getLast?_concat])
  · have at_end : (pluralWords (front ++ capitals ++ d :: rest)).getLast? = some (d :: rest) := by
      rw [List.append_assoc, words, cut]
      simp
    rw [← List.append_assoc, pluralChars_append at_end, List.append_assoc,
      pluralWord_append (isUpper_of_isDigit digit) (isLower_of_isDigit digit)]

end EntityGraph.Name
