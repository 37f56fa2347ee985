import EntityGraph.Proofs.WordPattern

/-!
The words of a plural by pattern. Two branches find them from left to right: small letters and digits
with at most one capital in front of them, and as many capitals as can be with no small letter behind
them. What they find are the words as far as plurals are concerned (`found_pluralPattern`), and each
of them is found as a whole where it stands alone (`found_of_mem`).
-/
namespace EntityGraph.Name

/-! ## The pattern -/

/-- A small letter or a digit. -/
def isSmall (c : Char) : Bool :=
  c.isLower || c.isDigit

/-- Small letters and digits with at most one capital in front of them. -/
def smallWord : Pattern
  | [] => none
  | c :: rest =>
    if isSmall c || (c.isUpper && 0 < run isSmall rest) then some (run isSmall rest) else none

/-- As many capitals as can be with no small letter behind them. -/
def capitalWord : Pattern
  | [] => none
  | c :: rest =>
    if c.isUpper then
      greatest (fun n => !(rest.drop n).head?.any Char.isLower) (run Char.isUpper rest)
    else none

/-- A word as far as plurals are concerned: what the first of two branches takes that matches. -/
def pluralPattern : Pattern := fun cs =>
  (smallWord cs).or (capitalWord cs)

theorem isSmall_iff {c : Char} : isSmall c = true ↔ isPart c = true ∧ c.isUpper = false := by
  rw [isSmall, Bool.or_eq_true, isPart_iff]
  constructor
  · rintro (small | digit)
    · exact ⟨.inr (.inl small), isUpper_of_isLower small⟩
    · exact ⟨.inr (.inr digit), isUpper_of_isDigit digit⟩
  · rintro ⟨upper | letter, notUpper⟩
    · exact absurd upper (by simp [notUpper])
    · exact letter

theorem small_of_isSmall {w : List Char} (are : ∀ c ∈ w, isSmall c = true) : Small w :=
  fun c mem => isSmall_iff.1 (are c mem)

section Branches

variable {c : Char} {rest : List Char} {n : Nat}

theorem smallWord_eq_none_iff : smallWord (c :: rest) = none ↔
    isSmall c = false ∧ (c.isUpper = true → ∀ b ∈ rest.head?, isSmall b = false) := by
  rw [smallWord, ← run_eq_zero_iff]
  simp [Nat.pos_iff_ne_zero]

/-- What the pattern takes, it takes as well if nothing follows. -/
theorem pluralPattern_take (takes : pluralPattern (c :: rest) = some n) :
    pluralPattern (c :: rest.take n) = some n := by
  rw [pluralPattern, Option.or_eq_some_iff] at takes ⊢
  rcases takes with small | ⟨noSmall, capitals⟩
  · rw [smallWord, Option.ite_none_right_eq_some, Option.some.injEq] at small
    obtain ⟨letter, rfl⟩ := small
    left
    rw [smallWord, run_take (Nat.le_refl _), if_pos letter]
  · simp only [capitalWord, Option.ite_none_right_eq_some] at capitals
    obtain ⟨upper, most⟩ := capitals
    obtain ⟨notSmall, notBehind⟩ := smallWord_eq_none_iff.1 noSmall
    refine .inr ⟨smallWord_eq_none_iff.2 ⟨notSmall, fun _ b first => ?_⟩, ?_⟩
    · rw [List.head?_take, Option.mem_def, Option.ite_none_left_eq_some] at first
      exact notBehind upper b first.2
    · rw [capitalWord, if_pos upper, run_take (greatest_eq_some most).1]
      exact greatest_self (by simp)

/-- Where the pattern takes nothing, no word begins. -/
theorem isPart_of_pluralPattern (nothing : pluralPattern (c :: rest) = none) :
    isPart c = false := by
  rw [pluralPattern, Option.or_eq_none_iff] at nothing
  obtain ⟨noSmall, noCapitals⟩ := nothing
  obtain ⟨notSmall, notBehind⟩ := smallWord_eq_none_iff.1 noSmall
  cases upper : c.isUpper with
  | false => simpa [← Bool.not_eq_true, isSmall_iff, upper] using notSmall
  | true =>
    -- A small letter follows, or else a single capital would do.
    rw [capitalWord, if_pos upper] at noCapitals
    have behind := greatest_eq_none noCapitals 0 (Nat.zero_le _)
    cases rest with
    | nil => simp at behind
    | cons b rest =>
      have small : b.isLower = true := by simpa using behind
      simpa [isSmall, small] using notBehind upper b rfl

end Branches

/-! ## Segments from the left -/

section Segments

variable {a c : Char} {small capitals rest : List Char} {n : Nat}

/-- Small letters and digits stay together up to a capital or a separator. A capital takes part if
    nothing is in front of it. -/
theorem pluralFrom_small (are : Small small)
    (ends : ∀ b ∈ rest.head?, isPart b = true → b.isUpper = true) (part : isPart a = true)
    (done : List Char) (alone : a.isUpper = true → done = [] ∧ (small = [] → rest = [])) :
    segmentsFrom pluralTurn (a :: done) (small ++ rest) =
      ((a :: done).reverse ++ small) :: segments pluralTurn rest := by
  induction small generalizing a done with
  | nil =>
    cases rest with
    | nil => simp [segmentsFrom, segments]
    | cons b rest =>
      cases part' : isPart b with
      | false => simp [segmentsFrom, segments, part']
      | true =>
        have upper := ends b rfl part'
        have letter : (a.isLower || a.isDigit) = true := by
          rcases isPart_iff.1 part with capital | small | digit
          · cases (alone capital).2 rfl
          · simp [small]
          · simp [digit]
        have turns : pluralTurn done.head? a b rest.head? = true := by
          simp [pluralTurn, caseTurn, upper, letter]
        simp [segmentsFrom, segments, part', turns]
  | cons b small ih =>
    obtain ⟨⟨part', upper⟩, are'⟩ := List.forall_mem_cons.1 are
    have later := ih are' part' (a :: done) (by simp [upper])
    have unturned : pluralTurn done.head? a b (small ++ rest).head? = false := by
      cases first : a.isUpper with
      | true => simp [pluralTurn, caseTurn, upper, (alone first).1]
      | false => simp [pluralTurn, caseTurn, upper, first]
    simp only [List.cons_append, segmentsFrom, part', unturned, later]
    simp

/-- Capitals stay together up to where they may end. A single capital does not end in front of a
    digit. -/
theorem pluralFrom_acronym (capital : Capital capitals) (closes : closesCapitals rest = true)
    (upper : a.isUpper = true) (done : List Char)
    (several : capitals ≠ [] ∨ done.head?.any Char.isUpper = true ∨
      rest.head?.any Char.isDigit = false) :
    segmentsFrom pluralTurn (a :: done) (capitals ++ rest) =
      ((a :: done).reverse ++ capitals) :: segments pluralTurn rest := by
  induction capitals generalizing a done with
  | nil =>
    cases rest with
    | nil => simp [segmentsFrom, segments]
    | cons b rest =>
      cases part : isPart b with
      | false => simp [segmentsFrom, segments, part]
      | true =>
        have turns : pluralTurn done.head? a b rest.head? = true := by
          simp only [closesCapitals, part, Bool.not_true, Bool.or_false, Bool.or_eq_true,
            Bool.and_eq_true] at closes
          rcases closes with ⟨upper', small⟩ | digit
          · simp [pluralTurn, caseTurn, upper, upper', small]
          · simp_all [pluralTurn]
        simp [segmentsFrom, segments, part, turns]
  | cons b capitals ih =>
    obtain ⟨upper', capital'⟩ := List.forall_mem_cons.1 capital
    have next := head_capital_append capital' (head_of_closesCapitals closes)
    have unturned : pluralTurn done.head? a b (capitals ++ rest).head? = false := by
      simp only [pluralTurn, not_caseTurn upper b next, isDigit_of_isUpper upper', Bool.and_false,
        Bool.false_and, Bool.or_false]
    have later := ih capital' upper' (a :: done) (.inr (.inl (by simp [upper])))
    simp only [List.cons_append, segmentsFrom, isPart_of_isUpper upper', unturned, later]
    simp

theorem segments_of_smallWord (takes : smallWord (c :: rest) = some n) :
    segments pluralTurn (c :: rest) =
      (c :: rest.take n) :: segments pluralTurn (rest.drop n) := by
  rw [smallWord, Option.ite_none_right_eq_some, Option.some.injEq] at takes
  obtain ⟨letter, rfl⟩ := takes
  have are := small_of_isSmall (forall_mem_take (Nat.le_refl (run isSmall rest)))
  have ends : ∀ b ∈ (rest.drop (run isSmall rest)).head?, isPart b = true → b.isUpper = true := by
    intro b first part
    have notSmall := head_drop_run isSmall rest b first
    simpa [← Bool.not_eq_true, isSmall_iff, part] using notSmall
  have part : isPart c = true := by
    rcases Bool.or_eq_true_iff.1 letter with small | capital
    · exact (isSmall_iff.1 small).1
    · exact isPart_of_isUpper (Bool.and_eq_true_iff.1 capital).1
  have filled : c.isUpper = true → rest.take (run isSmall rest) ≠ [] := by
    intro upper none
    have nothing : run isSmall rest = 0 := by
      rw [← run_take (Nat.le_refl (run isSmall rest)), none]
      rfl
    simp [isSmall, isLower_of_isUpper upper, isDigit_of_isUpper upper, nothing] at letter
  have cut := pluralFrom_small are ends part [] fun upper =>
    ⟨rfl, fun none => absurd none (filled upper)⟩
  rw [List.take_append_drop] at cut
  rw [segments_cons_part part, cut]
  rfl

/-- As many capitals as can be with no small letter behind them end where capitals may end. -/
theorem closesCapitals_of_greatest
    (most : greatest (fun n => !(rest.drop n).head?.any Char.isLower) (run Char.isUpper rest) =
      some n) : closesCapitals (rest.drop n) = true := by
  obtain ⟨le, fits⟩ := greatest_eq_some most
  cases behind : rest.drop n with
  | nil => rfl
  | cons b after =>
    rw [behind] at fits
    have notSmall : b.isLower = false := by simpa using fits
    cases upper : b.isUpper with
    | false =>
      cases part : isPart b with
      | false => simp [closesCapitals, part]
      | true => simp [closesCapitals, isDigit_of_isPart part upper notSmall]
    | true =>
      -- One capital more does not fit, so a small letter follows it.
      have less : n < run Char.isUpper rest := by
        refine Nat.lt_of_le_of_ne le fun all => ?_
        have last := head_drop_run Char.isUpper rest b (by rw [← all, behind]; rfl)
        simp [upper] at last
      have unfit := unfit_of_lt most (Nat.lt_succ_self n) less
      have next : rest.drop (n + 1) = after := by
        rw [← List.drop_drop, behind]
        rfl
      have small : after.head?.any Char.isLower = true := by simpa [next] using unfit
      simp [closesCapitals, upper, small]

theorem segments_of_capitalWord (noSmall : smallWord (c :: rest) = none)
    (takes : capitalWord (c :: rest) = some n) :
    segments pluralTurn (c :: rest) =
      (c :: rest.take n) :: segments pluralTurn (rest.drop n) := by
  simp only [capitalWord, Option.ite_none_right_eq_some] at takes
  obtain ⟨upper, most⟩ := takes
  have capital : Capital (rest.take n) := forall_mem_take (greatest_eq_some most).1
  have several : rest.take n ≠ [] ∨ ([] : List Char).head?.any Char.isUpper = true ∨
      (rest.drop n).head?.any Char.isDigit = false := by
    by_cases single : rest.take n = []
    · have behind : rest.drop n = rest := by simpa [single] using List.take_append_drop n rest
      rw [behind]
      cases rest with
      | nil => exact .inr (.inr rfl)
      | cons b rest =>
        have notSmall := (smallWord_eq_none_iff.1 noSmall).2 upper b rfl
        exact .inr (.inr (Bool.or_eq_false_iff.1 notSmall).2)
    · exact .inl single
  have cut := pluralFrom_acronym capital (closesCapitals_of_greatest most) upper [] several
  rw [List.take_append_drop] at cut
  rw [segments_cons_part (isPart_of_isUpper upper), cut]
  rfl

/-- What the pattern finds are the words of a plural. -/
theorem found_pluralPattern (cs : List Char) : found pluralPattern cs = pluralWords cs := by
  rw [pluralWords]
  fun_induction found pluralPattern cs with
  | case1 => rfl
  | case2 c rest n takes ih =>
    rw [ih]
    rcases Option.or_eq_some_iff.1 takes with small | ⟨noSmall, capitals⟩
    · exact (segments_of_smallWord small).symm
    · exact (segments_of_capitalWord noSmall capitals).symm
  | case3 c rest none ih => rw [ih, segments_cons_separator (isPart_of_pluralPattern none)]

end Segments

/-- A word that the pattern finds is all that it finds in the word. -/
theorem found_of_mem {cs w : List Char} (mem : w ∈ found pluralPattern cs) :
    found pluralPattern w = [w] := by
  fun_induction found pluralPattern cs with
  | case1 => cases mem
  | case2 c rest n takes ih =>
    rcases List.mem_cons.1 mem with rfl | mem
    · have nothing : (rest.take n).drop n = [] := by simp
      rw [found, pluralPattern_take takes]
      simp only [List.take_take, Nat.min_self, nothing, found]
    · exact ih mem
  | case3 c rest none ih => exact ih mem

end EntityGraph.Name
