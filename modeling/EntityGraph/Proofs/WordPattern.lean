import EntityGraph.Proofs.LastWords
import EntityGraph.Proofs.Trim

/-!
Words by pattern. A pattern with four branches finds the words of a name from left to right: small
letters with at most one capital in front of them; as many capitals as can be without the first one
of the next word; a single capital; digits. What it finds are the segments of the name
(`found_wordPattern`), so `words_eq_found` gives the words of a name in both ways.
-/
namespace EntityGraph.Name

/-! ## Patterns -/

/-- Whether a pattern matches the beginning of a text, and if so, how many characters behind the
    first one it takes. -/
abbrev Pattern := List Char → Option Nat

/-- What a pattern finds in a text, from left to right; a search goes on behind what was found. -/
def found (pattern : Pattern) : List Char → List (List Char)
  | [] => []
  | c :: rest =>
    match pattern (c :: rest) with
    | some n => (c :: rest.take n) :: found pattern (rest.drop n)
    | none => found pattern rest
termination_by cs => cs.length
decreasing_by
  · simp only [List.length_drop, List.length_cons]
    omega
  · simp

/-- The greatest number up to a bound that fits: a greedy repetition takes what it can and gives
    back one by one until the rest of its pattern fits. -/
def greatest (fits : Nat → Bool) : (bound : Nat) → Option Nat
  | 0 => if fits 0 then some 0 else none
  | n + 1 => if fits (n + 1) then some (n + 1) else greatest fits n

/-- The number of characters of a class at the beginning of a text. -/
def run (p : Char → Bool) (cs : List Char) : Nat :=
  (cs.takeWhile p).length

/-- Small letters with at most one capital in front of them. -/
def smallLetters : Pattern
  | [] => none
  | c :: rest =>
    if c.isLower || (c.isUpper && 0 < run Char.isLower rest) then some (run Char.isLower rest)
    else none

/-- Where capitals may end: in front of a capital and a small letter, of a digit, and where no
    letter or digit follows. -/
def closesCapitals : List Char → Bool
  | [] => true
  | b :: rest => (b.isUpper && rest.head?.any Char.isLower) || b.isDigit || !isPart b

/-- Capitals up to where they may end. -/
def capitalLetters : Pattern
  | [] => none
  | c :: rest =>
    if c.isUpper then
      greatest (fun n => closesCapitals (rest.drop n)) (run Char.isUpper rest)
    else none

/-- A single capital. -/
def capitalLetter : Pattern
  | [] => none
  | c :: _ => if c.isUpper then some 0 else none

/-- Digits. -/
def digits : Pattern
  | [] => none
  | c :: rest => if c.isDigit then some (run Char.isDigit rest) else none

/-- A word: what the first of its branches takes that matches. -/
def wordPattern : Pattern := fun cs =>
  (smallLetters cs).or ((capitalLetters cs).or ((capitalLetter cs).or (digits cs)))

theorem greatest_eq_some {fits : Nat → Bool} {bound n : Nat}
    (most : greatest fits bound = some n) : n ≤ bound ∧ fits n = true := by
  induction bound with
  | zero =>
    rw [greatest, Option.ite_none_right_eq_some] at most
    obtain ⟨fit, same⟩ := most
    cases same
    exact ⟨Nat.le_refl _, fit⟩
  | succ bound ih =>
    rw [greatest] at most
    split at most
    · rename_i fit
      cases most
      exact ⟨Nat.le_refl _, fit⟩
    · exact ⟨Nat.le_succ_of_le (ih most).1, (ih most).2⟩

theorem greatest_eq_none {fits : Nat → Bool} {bound : Nat} (none : greatest fits bound = none) :
    ∀ n ≤ bound, fits n = false := by
  induction bound with
  | zero =>
    intro n le
    obtain rfl := Nat.le_zero.1 le
    rw [greatest, ite_eq_right_iff] at none
    simpa using none
  | succ bound ih =>
    rw [greatest] at none
    split at none
    · cases none
    · rename_i unfit
      intro n le
      rcases Nat.le_succ_iff.1 le with le | rfl
      · exact ih none n le
      · simpa using unfit

theorem greatest_self {fits : Nat → Bool} {bound : Nat} (fit : fits bound = true) :
    greatest fits bound = some bound := by
  cases bound <;> simp [greatest, fit]

/-- Nothing that is greater fits. -/
theorem unfit_of_lt {fits : Nat → Bool} {bound n m : Nat} (most : greatest fits bound = some n)
    (greater : n < m) (le : m ≤ bound) : fits m = false := by
  induction bound with
  | zero => exact absurd greater (by omega)
  | succ bound ih =>
    rw [greatest] at most
    split at most
    · cases most
      exact absurd greater (by omega)
    · rename_i unfit
      rcases Nat.le_succ_iff.1 le with le | rfl
      · exact ih most le
      · simpa using unfit

theorem take_run (p : Char → Bool) (cs : List Char) : cs.take (run p cs) = cs.takeWhile p := by
  rw [run, ← List.prefix_iff_eq_take.1 (List.takeWhile_prefix p)]

theorem drop_run (p : Char → Bool) (cs : List Char) : cs.drop (run p cs) = cs.dropWhile p := by
  have whole := List.take_append_drop (run p cs) cs
  rw [take_run] at whole
  exact List.append_cancel_left (whole.trans List.takeWhile_append_dropWhile.symm)

/-- Fewer characters than there are of a class are all of the class. -/
theorem forall_mem_take {p : Char → Bool} {cs : List Char} {n : Nat} (le : n ≤ run p cs) :
    ∀ c ∈ cs.take n, p c = true := by
  intro c member
  have inside := (List.take_subset_take_left cs le) member
  rw [take_run] at inside
  exact List.mem_takeWhile_imp inside

/-- What is taken from a run of a class is a run of it. -/
theorem run_take {p : Char → Bool} {cs : List Char} {n : Nat} (le : n ≤ run p cs) :
    run p (cs.take n) = n := by
  have short : n ≤ cs.length := Nat.le_trans le (List.takeWhile_prefix p).length_le
  rw [run, List.takeWhile_eq_self_iff.2 (forall_mem_take le), List.length_take_of_le short]

theorem run_eq_zero_iff {p : Char → Bool} {cs : List Char} :
    run p cs = 0 ↔ ∀ b ∈ cs.head?, p b = false := by
  cases cs with
  | nil => simp [run]
  | cons c rest => cases here : p c <;> simp [run, here]

/-! ## Segments from the left -/

/-- A segment may end behind `a`, in front of a text. -/
def Stops (turn : Turn) (a : Char) : List Char → Prop
  | [] => True
  | b :: rest => isPart b = false ∨ ∀ before, turn before a b rest.head? = true

/-- Behind `a`, a segment goes on with the characters of `w` and ends in front of `rest`. -/
def Reaches (turn : Turn) : (a : Char) → (w rest : List Char) → Prop
  | a, [], rest => Stops turn a rest
  | a, b :: w, rest => isPart b = true ∧ (∀ before, turn before a b (w ++ rest).head? = false) ∧
      Reaches turn b w rest

section Reaches

variable {turn : Turn} {a : Char} {w rest : List Char}

theorem segmentsFrom_stops (stops : Stops turn a rest) (done : List Char) :
    segmentsFrom turn (a :: done) rest = (a :: done).reverse :: segments turn rest := by
  cases rest with
  | nil => rfl
  | cons b rest =>
    cases part : isPart b with
    | false => simp [segmentsFrom, segments, part]
    | true =>
      have turns := stops.resolve_left (by simp [part])
      simp [segmentsFrom, segments, part, turns]

theorem segmentsFrom_reaches (reaches : Reaches turn a w rest) (done : List Char) :
    segmentsFrom turn (a :: done) (w ++ rest) =
      ((a :: done).reverse ++ w) :: segments turn rest := by
  induction w generalizing a done with
  | nil => rw [List.nil_append, segmentsFrom_stops reaches, List.append_nil]
  | cons b w ih =>
    obtain ⟨part, unturned, reaches⟩ := reaches
    simp only [List.cons_append, segmentsFrom, part, unturned, ih reaches]
    simp

/-- What a segment reaches to is cut off at the beginning of a text. -/
theorem segments_reaches (part : isPart a = true) (reaches : Reaches turn a w rest) :
    segments turn (a :: (w ++ rest)) = (a :: w) :: segments turn rest := by
  rw [segments_cons_part part, segmentsFrom_reaches reaches]
  rfl

/-- A segment goes as far as characters of a class do in which it never ends. -/
theorem reaches_of_class {p : Char → Bool} (parts : ∀ b, p b = true → isPart b = true)
    (together : ∀ before a b after, p a = true → p b = true → turn before a b after = false)
    (apart : ∀ before a b after, p a = true → isPart b = true → p b = false →
      turn before a b after = true)
    (first : p a = true) (inside : ∀ b ∈ w, p b = true) (ends : ∀ b ∈ rest.head?, p b = false) :
    Reaches turn a w rest := by
  induction w generalizing a with
  | nil =>
    cases rest with
    | nil => trivial
    | cons b rest =>
      cases part : isPart b with
      | false => exact .inl part
      | true => exact .inr fun before => apart before a b _ first part (ends b rfl)
  | cons b w ih =>
    obtain ⟨here, later⟩ := List.forall_mem_cons.1 inside
    exact ⟨parts b here, fun before => together before a b _ first here, ih here later⟩

end Reaches

/-! ## Words -/

section Words

variable {a c : Char} {w rest : List Char} {n : Nat}

theorem reaches_small (small : a.isLower = true) (inside : ∀ b ∈ w, b.isLower = true)
    (ends : ∀ b ∈ rest.head?, b.isLower = false) : Reaches wordTurn a w rest := by
  refine reaches_of_class (fun b small => isPart_iff.2 (.inr (.inl small))) ?_ ?_ small inside ends
  · intro before a b after first second
    simp [wordTurn, caseTurn, isUpper_of_isLower second, isDigit_of_isLower first,
      isDigit_of_isLower second]
  · intro before a b after first part second
    cases upper : b.isUpper with
    | true => simp [wordTurn, caseTurn, upper, first]
    | false =>
      simp [wordTurn, isDigit_of_isLower first, isDigit_of_isPart part upper second]

theorem reaches_digits (digit : a.isDigit = true) (inside : ∀ b ∈ w, b.isDigit = true)
    (ends : ∀ b ∈ rest.head?, b.isDigit = false) : Reaches wordTurn a w rest := by
  refine reaches_of_class (fun b digit => isPart_iff.2 (.inr (.inr digit))) ?_ ?_ digit inside ends
  · intro before a b after first second
    simp [wordTurn, caseTurn, isUpper_of_isDigit second, first, second]
  · intro before a b after first _ second
    simp [wordTurn, first, second]

/-- No small letter is next where capitals end. -/
theorem head_of_closesCapitals (closes : closesCapitals rest = true) :
    ∀ b ∈ rest.head?, b.isLower = false := by
  rintro b first
  obtain ⟨rest, rfl⟩ := List.head?_eq_some_iff.1 first
  cases small : b.isLower with
  | false => rfl
  | true =>
    simp [closesCapitals, isUpper_of_isLower small, isDigit_of_isLower small,
      isPart_iff.2 (.inr (.inl small))] at closes

theorem reaches_capitals (upper : a.isUpper = true) (capital : Capital w)
    (closes : closesCapitals rest = true) : Reaches wordTurn a w rest := by
  induction w generalizing a with
  | nil =>
    cases rest with
    | nil => trivial
    | cons b rest =>
      simp only [closesCapitals, Bool.or_eq_true, Bool.and_eq_true, Bool.not_eq_true'] at closes
      rcases closes with (⟨upper', small⟩ | digit) | separator
      · exact .inr fun before => by simp [wordTurn, caseTurn, upper, upper', small]
      · exact .inr fun before => by simp [wordTurn, isDigit_of_isUpper upper, digit]
      · exact .inl separator
  | cons b w ih =>
    obtain ⟨upper', capital'⟩ := List.forall_mem_cons.1 capital
    have next := head_capital_append capital' (head_of_closesCapitals closes)
    refine ⟨isPart_of_isUpper upper', fun before => ?_, ih upper' capital'⟩
    rw [wordTurn, not_caseTurn upper b next, isDigit_of_isUpper upper, isDigit_of_isUpper upper']
    rfl

/-- Capitals may end in front of what is no capital, unless it is a small letter. -/
theorem head_of_not_closesCapitals (unfit : closesCapitals (rest.dropWhile Char.isUpper) = false) :
    ∃ b after, rest.dropWhile Char.isUpper = b :: after ∧ b.isLower = true := by
  cases behind : rest.dropWhile Char.isUpper with
  | nil =>
    rw [behind] at unfit
    cases unfit
  | cons b after =>
    have notUpper : b.isUpper = false := Text.head_dropWhile (by rw [behind]; rfl)
    rw [behind] at unfit
    simp only [closesCapitals, Bool.or_eq_false_iff, Bool.not_eq_false'] at unfit
    obtain ⟨⟨-, noDigit⟩, part⟩ := unfit
    refine ⟨b, after, rfl, ?_⟩
    cases small : b.isLower with
    | true => rfl
    | false =>
      rw [isDigit_of_isPart part notUpper small] at noDigit
      cases noDigit

/-- Capitals end somewhere, unless small letters follow the only one. -/
theorem capitalLetters_ne_none (upper : c.isUpper = true)
    (noSmall : smallLetters (c :: rest) = none) : capitalLetters (c :: rest) ≠ none := by
  intro noCapitals
  rw [capitalLetters, if_pos upper] at noCapitals
  have unfit := greatest_eq_none noCapitals
  have unfitLast := unfit _ (Nat.le_refl _)
  rw [drop_run] at unfitLast
  obtain ⟨b, after, behind, small⟩ := head_of_not_closesCapitals unfitLast
  have split : rest.takeWhile Char.isUpper ++ b :: after = rest :=
    behind ▸ List.takeWhile_append_dropWhile
  -- The last of these capitals begins the next word, so they could end in front of it.
  rcases List.eq_nil_or_concat (rest.takeWhile Char.isUpper) with single | ⟨init, last, more⟩
  · rw [single, List.nil_append] at split
    subst split
    simp [smallLetters, upper, small, run] at noSmall
  · rw [List.concat_eq_append] at more
    have capital : last.isUpper = true :=
      List.mem_takeWhile_imp (p := Char.isUpper) (l := rest) (by rw [more]; simp)
    have before := unfit init.length (by rw [run, more]; simp)
    rw [← split, more, List.append_assoc, List.drop_left] at before
    simp [closesCapitals, capital, small] at before

theorem head_drop_run (p : Char → Bool) (cs : List Char) :
    ∀ b ∈ (cs.drop (run p cs)).head?, p b = false := by
  rw [drop_run]
  exact fun b => Text.head_dropWhile

theorem reaches_of_smallLetters (takes : smallLetters (c :: rest) = some n) :
    isPart c = true ∧ Reaches wordTurn c (rest.take n) (rest.drop n) := by
  simp only [smallLetters, Option.ite_none_right_eq_some, Option.some.injEq] at takes
  obtain ⟨letter, rfl⟩ := takes
  have inside := forall_mem_take (Nat.le_refl (run Char.isLower rest))
  have ends := head_drop_run Char.isLower rest
  rcases Bool.or_eq_true_iff.1 letter with small | capitalized
  · exact ⟨isPart_iff.2 (.inr (.inl small)), reaches_small small inside ends⟩
  · obtain ⟨upper, some⟩ := Bool.and_eq_true_iff.1 capitalized
    refine ⟨isPart_of_isUpper upper, ?_⟩
    cases split : rest.take (run Char.isLower rest) with
    | nil =>
      rw [take_run] at split
      simp [run, split] at some
    | cons b w =>
      rw [split] at inside
      obtain ⟨small, inside⟩ := List.forall_mem_cons.1 inside
      refine ⟨isPart_iff.2 (.inr (.inl small)), fun before => ?_, reaches_small small inside ends⟩
      simp [wordTurn, caseTurn, isUpper_of_isLower small, isDigit_of_isLower small,
        isDigit_of_isUpper upper]

theorem reaches_of_capitalLetters (takes : capitalLetters (c :: rest) = some n) :
    isPart c = true ∧ Reaches wordTurn c (rest.take n) (rest.drop n) := by
  simp only [capitalLetters, Option.ite_none_right_eq_some] at takes
  obtain ⟨upper, most⟩ := takes
  obtain ⟨le, closes⟩ := greatest_eq_some most
  exact ⟨isPart_of_isUpper upper, reaches_capitals upper (forall_mem_take le) closes⟩

theorem reaches_of_digits (takes : digits (c :: rest) = some n) :
    isPart c = true ∧ Reaches wordTurn c (rest.take n) (rest.drop n) := by
  simp only [digits, Option.ite_none_right_eq_some, Option.some.injEq] at takes
  obtain ⟨digit, rfl⟩ := takes
  exact ⟨isPart_iff.2 (.inr (.inr digit)),
    reaches_digits digit (forall_mem_take (Nat.le_refl _)) (head_drop_run Char.isDigit rest)⟩

/-- What the pattern takes is a segment. -/
theorem reaches_of_wordPattern (takes : wordPattern (c :: rest) = some n) :
    isPart c = true ∧ Reaches wordTurn c (rest.take n) (rest.drop n) := by
  simp only [wordPattern, Option.or_eq_some_iff] at takes
  rcases takes with small | ⟨noSmall, capitals | ⟨noCapitals, capital | ⟨-, digits⟩⟩⟩
  · exact reaches_of_smallLetters small
  · exact reaches_of_capitalLetters capitals
  · -- The branch of a single capital is never reached.
    simp only [capitalLetter, Option.ite_none_right_eq_some] at capital
    exact absurd noCapitals (capitalLetters_ne_none capital.1 noSmall)
  · exact reaches_of_digits digits

/-- Where the pattern takes nothing, no word begins. -/
theorem isPart_of_wordPattern (nothing : wordPattern (c :: rest) = none) : isPart c = false := by
  simp only [wordPattern, Option.or_eq_none_iff, smallLetters, capitalLetter, Name.digits,
    ite_eq_right_iff, reduceCtorEq, imp_false] at nothing
  obtain ⟨noSmall, -, noCapital, noDigit⟩ := nothing
  rw [← Bool.not_eq_true, isPart_iff]
  rintro (upper | small | digit)
  · exact noCapital upper
  · exact noSmall (by simp [small])
  · exact noDigit digit

/-- The pattern finds the segments of a name. -/
theorem found_wordPattern (cs : List Char) : found wordPattern cs = segments wordTurn cs := by
  fun_induction found wordPattern cs with
  | case1 => rfl
  | case2 c rest n takes ih =>
    obtain ⟨part, reaches⟩ := reaches_of_wordPattern takes
    have cut := segments_reaches part reaches
    rw [List.take_append_drop] at cut
    rw [cut, ih]
  | case3 c rest none ih => rw [ih, segments_cons_separator (isPart_of_wordPattern none)]

end Words

/-! ## Separators -/

theorem cased_wordTurn : Turn.Cased wordTurn where
  sees before a b after after' same := by
    simp only [wordTurn, cased_caseTurn.sees before a b after after' same]
  turns _ _ _ _ turns := by simp [wordTurn, turns]

/-- A name with one and the same separator in the place of all that is no letter and no digit. -/
def replaced (separator : Char) (cs : List Char) : List Char :=
  cs.map fun c => if isPart c then c else separator

theorem isLower_of_not_isPart {c : Char} (none : isPart c = false) : c.isLower = false := by
  cases small : c.isLower with
  | false => rfl
  | true =>
    rw [isPart_iff.2 (.inr (.inl small))] at none
    cases none

section Replaced

variable {separator c : Char} {rest : List Char}

theorem replaced_cons_part (part : isPart c = true) :
    replaced separator (c :: rest) = c :: replaced separator rest := by
  simp [replaced, part]

theorem replaced_cons_separator (none : isPart c = false) :
    replaced separator (c :: rest) = separator :: replaced separator rest := by
  simp [replaced, none]

theorem head_replaced (none : isPart separator = false) (cs : List Char) :
    (replaced separator cs).head?.any Char.isLower = cs.head?.any Char.isLower := by
  cases cs with
  | nil => rfl
  | cons c rest =>
    cases part : isPart c with
    | true => rw [replaced_cons_part part]; rfl
    | false =>
      rw [replaced_cons_separator part]
      simp [isLower_of_not_isPart part, isLower_of_not_isPart none]

private theorem segmentsFrom_replaced {turn : Turn} (cased : turn.Cased)
    (none : isPart separator = false) (done cs : List Char) :
    segmentsFrom turn done (replaced separator cs) = segmentsFrom turn done cs := by
  fun_induction segmentsFrom turn done cs with
  | case1 => rfl
  | case2 a done => rfl
  | case3 c rest part ih => rw [replaced_cons_part part, segmentsFrom, if_pos part, ih]
  | case4 c rest apart ih =>
    rw [replaced_cons_separator (by simpa using apart), segmentsFrom, none]
    exact ih
  | case5 a done c rest apart ih =>
    rw [replaced_cons_separator (by simpa using apart), segmentsFrom, none]
    exact congrArg _ ih
  | case6 a done c rest part turns ih =>
    have part : isPart c = true := by simpa using part
    have turns : turn done.head? a c (replaced separator rest).head? = true :=
      (cased.sees _ _ _ _ _ (head_replaced none rest)).trans turns
    simp [replaced_cons_part part, segmentsFrom, part, turns, ih]
  | case7 a done c rest part unturned ih =>
    have part : isPart c = true := by simpa using part
    have unturned : turn done.head? a c (replaced separator rest).head? = false :=
      (cased.sees _ _ _ _ _ (head_replaced none rest)).trans (by simpa using unturned)
    simp [replaced_cons_part part, segmentsFrom, part, unturned, ih]

end Replaced

/-- Which separators a name has does not matter to its segments. -/
theorem segments_replaced {turn : Turn} (cased : turn.Cased) {separator : Char}
    (none : isPart separator = false) (cs : List Char) :
    segments turn (replaced separator cs) = segments turn cs :=
  segmentsFrom_replaced cased none [] cs

/-- The words of a name are what the pattern finds, in lower case, when blanks stand in the place of
    its separators. -/
theorem words_eq_found (cs : List Char) :
    words cs = (found wordPattern (replaced ' ' cs)).map lower := by
  rw [words, found_wordPattern, segments_replaced cased_wordTurn (by decide)]

end EntityGraph.Name
