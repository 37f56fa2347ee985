import EntityGraph.Proofs.Spellings

/-!
Snake case by substitution. Two substitutions put underscores where the case turns, one puts them in
the place of all that is no letter and no digit, one leaves a single one of several, and at last
those at the ends are taken off. What comes out are the segments of the name with single underscores
between them (`snakeChars_eq_substituted`), so no letter and no digit is lost.
-/
namespace EntityGraph.Name

/-! ## Rules -/

/-- Whether a rule matches the beginning of a text, and if so, how many characters behind the first
    one it takes, and what it puts in the place of them all. -/
abbrev Rule := List Char → Option (Nat × List Char)

/-- Replaces what a rule matches, from left to right; what was put in is not looked at again. -/
def substitute (rule : Rule) : List Char → List Char
  | [] => []
  | c :: rest =>
    match rule (c :: rest) with
    | some (n, new) => new ++ substitute rule (rest.drop n)
    | none => c :: substitute rule rest
termination_by cs => cs.length
decreasing_by
  · simp only [List.length_drop, List.length_cons]
    omega
  · simp

/-- A capital and a small letter at the beginning of a text. -/
def capitalized : List Char → Bool
  | a :: b :: _ => a.isUpper && b.isLower
  | _ => false

/-- An underscore between as many capitals as can be and a capital with a small letter. -/
def acronymRule : Rule
  | [] => none
  | c :: rest =>
    if c.isUpper then
      (greatest (fun n => capitalized (rest.drop n)) (run Char.isUpper rest)).map fun n =>
        (n + 2, c :: rest.take n ++ '_' :: (rest.drop n).take 2)
    else none

/-- An underscore between a small letter or a digit and a capital. -/
def capitalRule : Rule
  | a :: b :: _ => if (a.isLower || a.isDigit) && b.isUpper then some (1, [a, '_', b]) else none
  | _ => none

/-- An underscore in the place of a character that is no letter and no digit. -/
def separatorRule : Rule
  | [] => none
  | c :: _ => if isPart c then none else some (0, ['_'])

def isUnderscore (c : Char) : Bool :=
  c == '_'

/-- One underscore in the place of two or more. -/
def underscoresRule : Rule
  | [] => none
  | c :: rest =>
    if isUnderscore c && 0 < run isUnderscore rest then some (run isUnderscore rest, ['_'])
    else none

/-- What becomes of a name when all is substituted, one rule after the other, in lower case. -/
def substituted (cs : List Char) : List Char :=
  lower (Text.stripChars isUnderscore (substitute underscoresRule (substitute separatorRule
    (substitute capitalRule (substitute acronymRule cs)))))

/-! ## Underscores where the case turns -/

/-- A text with an underscore at every turn; `before` is what stands in front of it. -/
def marked (turn : Turn) : (before : Option Char) → List Char → List Char
  | _, [] => []
  | before, c :: rest =>
    if before.any fun a => turn none a c rest.head? then '_' :: c :: marked turn (some c) rest
    else c :: marked turn (some c) rest

/-- The case turns at the last capital of several in front of a small letter. -/
def acronymTurn : Turn := fun _ a b after => a.isUpper && b.isUpper && after.any Char.isLower

/-- The case turns at a capital behind a small letter or a digit. -/
def capitalTurn : Turn := fun _ a b _ => (a.isLower || a.isDigit) && b.isUpper

variable {c : Char} {w rest cs : List Char}

theorem marked_none {turn : Turn} : marked turn none (c :: rest) = c :: marked turn (some c) rest :=
  rfl

theorem marked_turn {turn : Turn} {a : Char} (turns : turn none a c rest.head? = true) :
    marked turn (some a) (c :: rest) = '_' :: c :: marked turn (some c) rest := by
  simp [marked, turns]

theorem marked_same {turn : Turn} {a : Char} (same : turn none a c rest.head? = false) :
    marked turn (some a) (c :: rest) = c :: marked turn (some c) rest := by
  simp [marked, same]

/-- Where there is no turn, it makes no difference what stands in front. -/
theorem marked_unturned {turn : Turn} {a : Char}
    (unturned : ∀ b after, rest = b :: after → turn none a b after.head? = false) :
    marked turn (some a) rest = marked turn none rest := by
  cases rest with
  | nil => rfl
  | cons b after => rw [marked_same (unturned b after rfl), marked_none]

theorem marked_acronym {l s : Char} (upper : c.isUpper = true) (capital : Capital w)
    (last : l.isUpper = true) (small : s.isLower = true) :
    marked acronymTurn none (c :: (w ++ l :: s :: rest)) =
      c :: (w ++ '_' :: l :: s :: marked acronymTurn none rest) := by
  induction w generalizing c with
  | nil =>
    have behind : marked acronymTurn (some s) rest = marked acronymTurn none rest :=
      marked_unturned fun b after _ => by simp [acronymTurn, isUpper_of_isLower small]
    simp [marked, acronymTurn, upper, last, small, isUpper_of_isLower small, behind]
  | cons b w ih =>
    obtain ⟨upper', capital'⟩ := List.forall_mem_cons.1 capital
    have next : (w ++ l :: s :: rest).head?.any Char.isLower = false :=
      head_capital_append capital' (by simp [isLower_of_isUpper last])
    have unturned : marked acronymTurn (some c) (b :: (w ++ l :: s :: rest)) =
        marked acronymTurn none (b :: (w ++ l :: s :: rest)) :=
      marked_unturned fun d after same => by
        obtain ⟨rfl, rfl⟩ := List.cons.inj same
        rw [acronymTurn, next, Bool.and_false]
    rw [List.cons_append, marked_none, unturned, ih upper' capital']
    rfl

theorem substitute_acronymRule (cs : List Char) :
    substitute acronymRule cs = marked acronymTurn none cs := by
  fun_induction substitute acronymRule cs with
  | case1 => rfl
  | case2 c rest n new matched ih =>
    simp only [acronymRule, Option.ite_none_right_eq_some, Option.map_eq_some_iff,
      Prod.mk.injEq] at matched
    obtain ⟨upper, k, most, rfl, rfl⟩ := matched
    obtain ⟨le, fits⟩ := greatest_eq_some most
    obtain ⟨l, s, behind, split, last, small⟩ : ∃ l s behind, rest.drop k = l :: s :: behind ∧
        l.isUpper = true ∧ s.isLower = true := by
      match split : rest.drop k with
      | [] => simp [split, capitalized] at fits
      | [l] => simp [split, capitalized] at fits
      | l :: s :: behind =>
        simp only [split, capitalized, Bool.and_eq_true] at fits
        exact ⟨l, s, behind, rfl, fits⟩
    have whole : c :: rest = c :: (rest.take k ++ l :: s :: behind) := by
      rw [← split, List.take_append_drop]
    have after : rest.drop (k + 2) = behind := by
      rw [← List.drop_drop, split]
      rfl
    rw [ih, whole, marked_acronym upper (forall_mem_take le) last small, after, split]
    simp
  | case3 c rest unmatched ih =>
    rw [ih, marked_none, marked_unturned]
    rintro b after rfl
    by_contra turns
    simp only [acronymTurn, Bool.not_eq_false, Bool.and_eq_true] at turns
    obtain ⟨⟨upper, upper'⟩, small⟩ := turns
    simp only [acronymRule, upper, if_true, Option.map_eq_none_iff] at unmatched
    have unfit := greatest_eq_none unmatched 0 (Nat.zero_le _)
    cases after with
    | nil => simp at small
    | cons s behind => simp_all [capitalized]

theorem substitute_capitalRule (cs : List Char) :
    substitute capitalRule cs = marked capitalTurn none cs := by
  fun_induction substitute capitalRule cs with
  | case1 => rfl
  | case2 c rest n new matched ih =>
    cases rest with
    | nil => simp [capitalRule] at matched
    | cons b rest =>
      simp only [capitalRule, Option.ite_none_right_eq_some, Option.some.injEq,
        Prod.mk.injEq] at matched
      obtain ⟨turns, rfl, rfl⟩ := matched
      have upper := (Bool.and_eq_true_iff.1 turns).2
      have behind : marked capitalTurn (some b) rest = marked capitalTurn none rest :=
        marked_unturned fun d after _ => by
          simp [capitalTurn, isLower_of_isUpper upper, isDigit_of_isUpper upper]
      have here : marked capitalTurn none (c :: b :: rest) =
          c :: '_' :: b :: marked capitalTurn (some b) rest := by
        simp [marked, capitalTurn, turns]
      rw [List.drop_one, List.tail_cons] at ih ⊢
      rw [here, behind, ih]
      rfl
  | case3 c rest unmatched ih =>
    rw [ih, marked_none, marked_unturned]
    rintro b after rfl
    simpa [capitalRule, capitalTurn] using unmatched

/-- The case turns in one of two ways. -/
theorem caseTurn_eq (before : Option Char) (a b : Char) (after : Option Char) :
    caseTurn before a b after = (capitalTurn none a b after || acronymTurn none a b after) := by
  simp only [caseTurn, capitalTurn, acronymTurn]
  cases b.isUpper <;> simp

/-- The two ways do not get in each other's way: at an underscore the case does not turn. -/
theorem marked_marked (before : Option Char) (cs : List Char) :
    marked capitalTurn before (marked acronymTurn before cs) = marked caseTurn before cs := by
  induction cs generalizing before with
  | nil => rfl
  | cons c rest ih =>
    cases before with
    | none => rw [marked_none, marked_none, marked_none, ih]
    | some a =>
      cases acronym : acronymTurn none a c rest.head? with
      | true =>
        have turns : caseTurn none a c rest.head? = true := by
          rw [caseTurn_eq, acronym, Bool.or_true]
        have inFront (after : Option Char) : capitalTurn none a '_' after = false :=
          Bool.and_false _
        have behind (after : Option Char) : capitalTurn none '_' c after = false :=
          Bool.false_and _
        rw [marked_turn acronym, marked_turn turns, marked_same (inFront _),
          marked_same (behind _), ih]
      | false =>
        have same : caseTurn none a c rest.head? = capitalTurn none a c rest.head? := by
          rw [caseTurn_eq, acronym, Bool.or_false]
        rw [marked_same acronym]
        cases capital : capitalTurn none a c rest.head? with
        | true => rw [marked_turn (same.trans capital), ← ih]; exact marked_turn capital
        | false => rw [marked_same (same.trans capital), ← ih]; exact marked_same capital

/-- Without turns, a name is cut into its runs of letters and digits. -/
def unturned : Turn := fun _ _ _ _ => false

/-- In front of a separator and behind it, the case does not turn. -/
theorem caseTurn_separator {a b : Char} (apart : isPart a = false ∨ isPart b = false)
    (before after : Option Char) : caseTurn before a b after = false := by
  by_contra turns
  have turns : caseTurn before a b after = true := by simpa using turns
  have upper := isUpper_of_caseTurn turns
  rcases apart with apart | apart
  · rw [← Bool.not_eq_true, isPart_iff] at apart
    simp only [caseTurn, Bool.and_eq_true, Bool.or_eq_true] at turns
    grind
  · rw [isPart_of_isUpper upper] at apart
    cases apart

/-- Where the case turns, underscores are separators. -/
theorem segmentsFrom_marked (done cs : List Char) :
    segmentsFrom unturned done (marked caseTurn done.head? cs) = segmentsFrom caseTurn done cs := by
  have separator : isPart '_' = false := by decide
  have behind {c : Char} {rest : List Char} (apart : isPart c = false) :
      marked caseTurn (some c) rest = marked caseTurn none rest :=
    marked_unturned fun b after _ => caseTurn_separator (.inl apart) none after.head?
  fun_induction segmentsFrom caseTurn done cs with
  | case1 => rfl
  | case2 a done => rfl
  | case3 c rest part ih =>
    rw [List.head?_nil, marked_none, segmentsFrom, if_pos part]
    exact ih
  | case4 c rest apart ih =>
    have apart : isPart c = false := by simpa using apart
    rw [List.head?_nil, marked_none, segmentsFrom, apart, behind apart]
    exact ih
  | case5 a done c rest apart ih =>
    have apart : isPart c = false := by simpa using apart
    rw [List.head?_cons, marked_same (caseTurn_separator (.inr apart) _ _), behind apart,
      segmentsFrom, apart]
    exact congrArg _ ih
  | case6 a done c rest part turns ih =>
    have part : isPart c = true := by simpa using part
    have here : caseTurn none a c rest.head? = true := turns
    rw [List.head?_cons, marked_turn here, segmentsFrom, separator, segmentsFrom, part]
    exact congrArg _ ih
  | case7 a done c rest part same ih =>
    have part : isPart c = true := by simpa using part
    have here : caseTurn none a c rest.head? = false := Bool.not_eq_true _ ▸ same
    rw [List.head?_cons, marked_same here, segmentsFrom, part]
    exact ih

/-! ## Separators -/

theorem substitute_separatorRule (cs : List Char) :
    substitute separatorRule cs = replaced '_' cs := by
  fun_induction substitute separatorRule cs with
  | case1 => rfl
  | case2 c rest n new matched ih =>
    simp only [separatorRule, Option.ite_none_left_eq_some, Option.some.injEq,
      Prod.mk.injEq] at matched
    obtain ⟨apart, rfl, rfl⟩ := matched
    rw [ih, replaced_cons_separator (by simpa using apart)]
    rfl
  | case3 c rest unmatched ih =>
    rw [ih, replaced_cons_part]
    simpa [separatorRule] using unmatched

/-- A text with one underscore in the place of several. -/
def single (cs : List Char) : List Char :=
  substitute underscoresRule cs

theorem single_nil : single [] = [] := by
  rw [single, substitute]

theorem single_cons (other : isUnderscore c = false) : single (c :: rest) = c :: single rest := by
  simp [single, substitute, underscoresRule, other]

theorem single_cons_underscore (rest : List Char) :
    single ('_' :: rest) = '_' :: single (rest.dropWhile isUnderscore) := by
  rw [← drop_run, single, substitute, underscoresRule]
  cases run isUnderscore rest with
  | zero => rfl
  | succ n => rfl

theorem single_dropWhile (cs : List Char) :
    single (cs.dropWhile isUnderscore) = (single cs).dropWhile isUnderscore := by
  induction cs with
  | nil => rw [List.dropWhile_nil, single_nil, List.dropWhile_nil]
  | cons c rest ih =>
    cases underscore : isUnderscore c with
    | true =>
      obtain rfl := beq_iff_eq.1 underscore
      rw [List.dropWhile_cons_of_pos underscore, single_cons_underscore,
        List.dropWhile_cons_of_pos underscore, ih, List.dropWhile_idempotent]
    | false =>
      have other : ¬ isUnderscore c = true := Bool.eq_false_iff.1 underscore
      rw [List.dropWhile_cons_of_neg other, single_cons underscore,
        List.dropWhile_cons_of_neg other]

theorem not_isUnderscore (part : isPart c = true) : isUnderscore c = false := by
  cases underscore : isUnderscore c with
  | false => rfl
  | true =>
    rw [beq_iff_eq.1 underscore] at part
    cases part

/-! ## Joined segments -/

/-- Nothing is taken off from letters and digits at the beginning of a text. -/
theorem stripChars_append_parts (filled : w ≠ []) (parts : ∀ c ∈ w, isPart c = true)
    (rest : List Char) :
    Text.stripChars isUnderscore (w ++ rest) = w ++ Text.stripEnd isUnderscore rest :=
  Text.stripChars_append_solid filled (fun c member => not_isUnderscore (parts c member)) [] rest

theorem join_eq_nil {separator : List Char} {ws : List (List Char)}
    (filled : ∀ w ∈ ws, w ≠ []) (nothing : join separator ws = []) : ws = [] := by
  cases ws with
  | nil => rfl
  | cons w ws =>
    have first := filled w List.mem_cons_self
    cases ws with
    | nil => exact absurd nothing first
    | cons v ws =>
      rw [join_cons (List.cons_ne_nil _ _), List.append_assoc, List.append_eq_nil_iff] at nothing
      exact absurd nothing.1 first

/-- The underscores between a word and what is left of a text become a single one. -/
theorem stripChars_word {ws : List (List Char)} (filled : w ≠ [])
    (parts : ∀ c ∈ w, isPart c = true) (others : ∀ v ∈ ws, v ≠ [])
    (joined : Text.stripChars isUnderscore cs = join ['_'] ws) :
    Text.stripChars isUnderscore (w ++ '_' :: cs.dropWhile isUnderscore) =
      join ['_'] (w :: ws) := by
  have joined : Text.stripEnd isUnderscore (cs.dropWhile isUnderscore) = join ['_'] ws := joined
  rw [stripChars_append_parts filled parts]
  cases left : cs.dropWhile isUnderscore with
  | nil =>
    rw [left, Text.stripEnd_nil] at joined
    rw [join_eq_nil others joined.symm]
    exact List.append_nil w
  | cons d after =>
    have other : isUnderscore d = false := Text.head_dropWhile (by rw [left]; rfl)
    have kept := Text.stripEnd_append_cons other
    have joined : d :: Text.stripEnd isUnderscore after = join ['_'] ws := by
      rw [← joined, left]
      exact (kept [] after).symm
    have more : ws ≠ [] := by
      rintro rfl
      cases joined
    rw [join_cons more, ← joined, List.append_assoc]
    exact congrArg _ (kept ['_'] after)

/-- Single underscores without those at the ends stand between the runs of letters and digits. -/
theorem stripChars_single (done cs : List Char) (parts : ∀ c ∈ done, isPart c = true) :
    Text.stripChars isUnderscore (done.reverse ++ single (replaced '_' cs)) =
      join ['_'] (segmentsFrom unturned done cs) := by
  fun_induction segmentsFrom unturned done cs with
  | case1 => rw [replaced, List.map_nil, single_nil]; rfl
  | case2 a done =>
    rw [stripChars_append_parts (by simp) fun c member => parts c (List.mem_reverse.1 member),
      replaced, List.map_nil, single_nil]
    exact List.append_nil _
  | case3 c rest part ih =>
    rw [replaced_cons_part part, single_cons (not_isUnderscore part)]
    exact ih (by simpa using part)
  | case4 c rest apart ih =>
    rw [replaced_cons_separator (by simpa using apart), single_cons_underscore, single_dropWhile,
      ← ih parts, List.reverse_nil, List.nil_append, List.nil_append, Text.stripChars_cons rfl,
      Text.stripChars_dropWhile]
  | case5 a done c rest apart ih =>
    rw [replaced_cons_separator (by simpa using apart), single_cons_underscore, single_dropWhile]
    exact stripChars_word (by simp) (fun c member => parts c (List.mem_reverse.1 member))
      (fun v member => (isPart_of_segments member).1) (ih (by simp))
  | case6 a done c rest part turns ih => cases turns
  | case7 a done c rest part same ih =>
    have part : isPart c = true := by simpa using part
    rw [replaced_cons_part part, single_cons (not_isUnderscore part),
      ← ih (List.forall_mem_cons.2 ⟨part, parts⟩)]
    simp

theorem lower_join (ws : List (List Char)) :
    lower (join ['_'] ws) = join ['_'] (ws.map lower) := by
  induction ws with
  | nil => rfl
  | cons w ws ih =>
    by_cases more : ws = []
    · simp [more, join]
    · rw [join_cons more, lower_append, lower_append, ih, List.map_cons, join_cons (by simpa)]
      rfl

/-- Snake case is what the substitutions make of a name. -/
theorem snakeChars_eq_substituted (cs : List Char) : snakeChars cs = substituted cs := by
  have cut : segments unturned (marked caseTurn none cs) = segments caseTurn cs :=
    segmentsFrom_marked [] cs
  calc snakeChars cs
    _ = lower (join ['_'] (segments unturned (marked caseTurn none cs))) := by
      rw [snakeChars, cut, lower_join]
    _ = lower (Text.stripChars isUnderscore (single (replaced '_' (marked caseTurn none cs)))) := by
      rw [segments, ← stripChars_single [] _ (by simp)]
      rfl
    _ = substituted cs := by
      rw [substituted, substitute_acronymRule, substitute_capitalRule, marked_marked,
        substitute_separatorRule, single]

/-! ## Normal forms -/

theorem join_eq_intercalate (separator : List Char) (ws : List (List Char)) :
    join separator ws = separator.intercalate ws := by
  induction ws with
  | nil => rfl
  | cons w ws ih =>
    cases ws with
    | nil => simp [join, List.intercalate]
    | cons v ws => rw [join_cons (List.cons_ne_nil _ _), ih, List.intercalate_cons_cons]

theorem flatten_map_lower (ws : List (List Char)) : (ws.map lower).flatten = lower ws.flatten := by
  rw [lower, List.map_flatten]
  rfl

/-- Snake case takes a name through the substitutions. It is made of words in lower case with single
    underscores between them, without which it has the letters and digits of the name, as the words
    of the name have. Snake case does not change what is in snake case. -/
theorem snake_normal (s : String) :
    snake s = String.ofList (substituted s.toList) ∧
      (∃ ws, (∀ w ∈ ws, w ≠ [] ∧ Small w) ∧ (snake s).toList = List.intercalate ['_'] ws) ∧
      (snake s).toList.filter (· != '_') = lower (s.toList.filter isPart) ∧
      (words s.toList).flatten = lower (s.toList.filter isPart) ∧
      snake (snake s) = snake s := by
  have small : ∀ w ∈ (segments caseTurn s.toList).map lower, w ≠ [] ∧ Small w :=
    fun w member => small_of_segments member
  have chars : (snake s).toList = join ['_'] ((segments caseTurn s.toList).map lower) := by
    rw [snake, String.toList_ofList, snakeChars]
  refine ⟨by rw [snake, snakeChars_eq_substituted], ⟨_, small, ?_⟩, ?_, ?_, ?_⟩
  · rw [chars, join_eq_intercalate]
  · have kept : ∀ w ∈ (segments caseTurn s.toList).map lower, ∀ c ∈ w, (c != '_') = true := by
      intro w member c inside
      simpa [isUnderscore] using not_isUnderscore ((small w member).2 c inside).1
    rw [chars, join_filter (by decide) kept, flatten_map_lower, segments_flatten]
  · rw [words, flatten_map_lower, segments_flatten]
  · have again : segments caseTurn (snake s).toList = (segments caseTurn s.toList).map lower := by
      rw [chars, segments_join_small (by decide) small]
    have same : ∀ w ∈ (segments caseTurn s.toList).map lower, lower w = w :=
      fun w member => (small w member).2.lower_eq
    rw [snake, snakeChars, again, List.map_congr_left same, List.map_id', ← snakeChars, ← snake]

end EntityGraph.Name
