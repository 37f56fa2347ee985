import EntityGraph.Name.Plural
import Mathlib.Tactic.SplitIfs

/-!
How names are cut. Where a separator stands or the case turns, what follows is cut as if it stood
alone. The segments hold the letters and digits of a name, all of them and in order.
-/
namespace EntityGraph.Name

/-! ## Letters -/

theorem isUpper_iff {c : Char} : c.isUpper = true ↔ 'A'.val ≤ c.val ∧ c.val ≤ 'Z'.val :=
  decide_eq_true_iff

theorem isLower_iff {c : Char} : c.isLower = true ↔ 'a'.val ≤ c.val ∧ c.val ≤ 'z'.val := by
  show (decide ('a'.val ≤ c.val) && decide (c.val ≤ 'z'.val)) = true ↔ _
  rw [Bool.and_eq_true, decide_eq_true_iff, decide_eq_true_iff]

theorem isDigit_iff {c : Char} : c.isDigit = true ↔ '0'.val ≤ c.val ∧ c.val ≤ '9'.val := by
  show (decide ('0'.val ≤ c.val) && decide (c.val ≤ '9'.val)) = true ↔ _
  rw [Bool.and_eq_true, decide_eq_true_iff, decide_eq_true_iff]

theorem isPart_iff {c : Char} :
    isPart c = true ↔ c.isUpper = true ∨ c.isLower = true ∨ c.isDigit = true := by
  show (c.isUpper || c.isLower || c.isDigit) = true ↔ _
  rw [Bool.or_eq_true, Bool.or_eq_true, or_assoc]

theorem isLower_of_isUpper {c : Char} (upper : c.isUpper = true) : c.isLower = false := by
  rw [← Bool.not_eq_true, isLower_iff]
  rw [isUpper_iff] at upper
  grind

theorem isDigit_of_isUpper {c : Char} (upper : c.isUpper = true) : c.isDigit = false := by
  rw [← Bool.not_eq_true, isDigit_iff]
  rw [isUpper_iff] at upper
  grind

theorem isDigit_of_isLower {c : Char} (small : c.isLower = true) : c.isDigit = false := by
  rw [← Bool.not_eq_true, isDigit_iff]
  rw [isLower_iff] at small
  grind

theorem isUpper_of_isLower {c : Char} (small : c.isLower = true) : c.isUpper = false := by
  cases upper : c.isUpper with
  | false => rfl
  | true => simp [isLower_of_isUpper upper] at small

theorem isUpper_of_isDigit {c : Char} (digit : c.isDigit = true) : c.isUpper = false := by
  cases upper : c.isUpper with
  | false => rfl
  | true => simp [isDigit_of_isUpper upper] at digit

theorem isLower_of_isDigit {c : Char} (digit : c.isDigit = true) : c.isLower = false := by
  cases small : c.isLower with
  | false => rfl
  | true => simp [isDigit_of_isLower small] at digit

private theorem asciiLetters : ∀ n < 0x80,
    ((Char.ofNat n).isUpper = true → (Char.ofNat n).toLower.isLower = true) ∧
    ((Char.ofNat n).isLower = true → (Char.ofNat n).toUpper.isUpper = true ∧
      (Char.ofNat n).toUpper.toLower = Char.ofNat n) := by
  decide +kernel

private theorem letters {c : Char} (letter : c.isUpper = true ∨ c.isLower = true) :
    (c.isUpper = true → c.toLower.isLower = true) ∧
    (c.isLower = true → c.toUpper.isUpper = true ∧ c.toUpper.toLower = c) := by
  have ascii : c.toNat < 0x80 := by
    simp only [isUpper_iff, isLower_iff, UInt32.le_iff_toNat_le, Char.reduceVal,
      UInt32.reduceToNat] at letter
    show c.val.toNat < 0x80
    omega
  have here := asciiLetters c.toNat ascii
  rwa [Char.ofNat_toNat] at here

theorem isLower_toLower {c : Char} (upper : c.isUpper = true) : c.toLower.isLower = true :=
  (letters (.inl upper)).1 upper

theorem isUpper_toUpper {c : Char} (small : c.isLower = true) : c.toUpper.isUpper = true :=
  ((letters (.inr small)).2 small).1

theorem toLower_toUpper {c : Char} (small : c.isLower = true) : c.toUpper.toLower = c :=
  ((letters (.inr small)).2 small).2

theorem toLower_of_not_isUpper {c : Char} (upper : c.isUpper = false) : c.toLower = c :=
  dif_neg fun bounds => Bool.false_ne_true (upper.symm.trans (isUpper_iff.2 bounds))

theorem toUpper_of_not_isLower {c : Char} (small : c.isLower = false) : c.toUpper = c :=
  dif_neg fun bounds => Bool.false_ne_true (small.symm.trans (isLower_iff.2 bounds))

theorem isPart_of_isUpper {c : Char} (upper : c.isUpper = true) : isPart c = true :=
  isPart_iff.2 (.inl upper)

@[simp] theorem isUpper_toLower (c : Char) : c.toLower.isUpper = false := by
  cases upper : c.isUpper with
  | true => exact isUpper_of_isLower (isLower_toLower upper)
  | false => rw [toLower_of_not_isUpper upper, upper]

@[simp] theorem isPart_toLower (c : Char) : isPart c.toLower = isPart c := by
  cases upper : c.isUpper with
  | true =>
    rw [isPart_of_isUpper upper, isPart_iff.2 (.inr (.inl (isLower_toLower upper)))]
  | false => rw [toLower_of_not_isUpper upper]

@[simp] theorem lower_lower (w : List Char) : lower (lower w) = lower w := by
  simp [lower, toLower_of_not_isUpper]

@[simp] theorem lower_append (v w : List Char) : lower (v ++ w) = lower v ++ lower w := by
  simp [lower]

@[simp] theorem length_lower (w : List Char) : (lower w).length = w.length := by
  simp [lower]

theorem isDigit_of_isPart {c : Char} (part : isPart c = true) (upper : c.isUpper = false)
    (lower : c.isLower = false) : c.isDigit = true := by
  rcases isPart_iff.1 part with h | h | h <;> simp_all

/-- Letters in lower case and digits. -/
def Small (w : List Char) : Prop := ∀ c ∈ w, isPart c = true ∧ c.isUpper = false

/-- Letters in upper case. -/
def Capital (w : List Char) : Prop := ∀ c ∈ w, c.isUpper = true

theorem small_lower {w : List Char} (parts : ∀ c ∈ w, isPart c = true) : Small (lower w) := by
  intro c mem
  obtain ⟨d, mem', rfl⟩ := List.mem_map.1 mem
  exact ⟨(isPart_toLower d).trans (parts d mem'), isUpper_toLower d⟩

theorem Small.lower_eq {w : List Char} (small : Small w) : lower w = w := by
  rw [lower, List.map_congr_left fun c mem => toLower_of_not_isUpper (small c mem).2, List.map_id']

/-! ## Cuts -/

/-- A turn that a separator or a letter in upper case behind it does not tell from the end, and
    that is there whenever the case turns. -/
structure Turn.Cased (turn : Turn) : Prop where
  sees : ∀ before a b after after', after.any Char.isLower = after'.any Char.isLower →
    turn before a b after = turn before a b after'
  turns : ∀ before a b after, caseTurn before a b after = true → turn before a b after = true

theorem cased_caseTurn : Turn.Cased caseTurn where
  sees _ _ _ _ _ same := by simp only [caseTurn, same]
  turns _ _ _ _ turns := turns

theorem cased_pluralTurn : Turn.Cased pluralTurn where
  sees _ _ _ _ _ same := by simp only [pluralTurn, caseTurn, same]
  turns _ _ _ _ turns := by simp [pluralTurn, turns]

theorem isUpper_of_caseTurn {before after : Option Char} {a b : Char}
    (turns : caseTurn before a b after = true) : b.isUpper = true := by
  simp only [caseTurn, Bool.and_eq_true] at turns
  exact turns.1

/-- The case turns in front of a capitalized word. -/
theorem caseTurn_capitalized {before : Option Char} {a b c : Char} (part : isPart a = true)
    (upper : b.isUpper = true) (small : c.isLower = true) :
    caseTurn before a b (some c) = true := by
  rcases isPart_iff.1 part with h | h | h <;> simp [caseTurn, upper, small, h]

section Cuts

variable {turn : Turn}

/-- A letter or a digit begins a segment. -/
theorem segments_cons_part {c : Char} (part : isPart c = true) (rest : List Char) :
    segments turn (c :: rest) = segmentsFrom turn [c] rest := by
  rw [segments, segmentsFrom, if_pos part]

theorem segments_cons_separator {c : Char} (separator : isPart c = false) (rest : List Char) :
    segments turn (c :: rest) = segments turn rest := by
  simp [segments, segmentsFrom, separator]

theorem segmentsFrom_flush {c : Char} (separator : isPart c = false) (done rest : List Char) :
    segmentsFrom turn done (c :: rest) = segmentsFrom turn done [] ++ segments turn rest := by
  cases done <;> simp [segmentsFrom, segments, separator]

/-- A separator ends a segment. -/
theorem segmentsFrom_separator (cased : turn.Cased) {c : Char} (separator : isPart c = false)
    (done x y : List Char) :
    segmentsFrom turn done (x ++ c :: y) = segmentsFrom turn done x ++ segments turn y := by
  induction x generalizing done with
  | nil => exact segmentsFrom_flush separator done y
  | cons b x ih =>
    cases done with
    | nil =>
      simp only [List.cons_append, segmentsFrom]
      split <;> exact ih _
    | cons a done =>
      have small : c.isLower = false := by
        simp only [← Bool.not_eq_true, isPart_iff] at separator ⊢
        exact fun small => separator (.inr (.inl small))
      have sees : turn done.head? a b (x ++ c :: y).head? = turn done.head? a b x.head? := by
        refine cased.sees _ _ _ _ _ ?_
        cases x <;> simp [small]
      simp only [List.cons_append, segmentsFrom, sees, ih]
      split_ifs <;> rfl

/-- A turn ends a segment. -/
theorem segmentsFrom_turn (cased : turn.Cased) {a b : Char} {y : List Char} (part : isPart a = true)
    (turns : caseTurn none a b y.head? = true) (done x : List Char) :
    segmentsFrom turn done (x ++ a :: b :: y) =
      segmentsFrom turn done (x ++ [a]) ++ segments turn (b :: y) := by
  have upper := isUpper_of_caseTurn turns
  have part' := isPart_of_isUpper upper
  have cut : ∀ before, turn before a b y.head? = true :=
    fun before => cased.turns before a b _ turns
  induction x generalizing done with
  | nil =>
    cases done with
    | nil => simp [segmentsFrom, segments, part, part', cut]
    | cons o done =>
      have sees : turn done.head? o a (some b) = turn done.head? o a none :=
        cased.sees _ _ _ _ _ (by simp [isLower_of_isUpper upper])
      simp only [List.nil_append, segmentsFrom, segments, List.head?_cons, List.head?_nil, part,
        part', cut, sees]
      split_ifs <;> simp_all
  | cons c x ih =>
    cases done with
    | nil =>
      simp only [List.cons_append, segmentsFrom]
      split <;> exact ih _
    | cons o done =>
      have sees : (x ++ a :: b :: y).head? = (x ++ [a]).head? := by cases x <;> rfl
      simp only [List.cons_append, segmentsFrom, sees, ih]
      split_ifs <;> rfl

private theorem isPart_reverse {w : List Char} (filled : w ≠ [])
    (parts : ∀ c ∈ w, isPart c = true) : w.reverse ≠ [] ∧ ∀ c ∈ w.reverse, isPart c = true :=
  ⟨by simpa using filled, fun c mem => parts c (List.mem_reverse.1 mem)⟩

private theorem segmentsFrom_isPart (done cs : List Char) (parts : ∀ c ∈ done, isPart c = true) :
    ∀ w ∈ segmentsFrom turn done cs, w ≠ [] ∧ ∀ c ∈ w, isPart c = true := by
  fun_induction segmentsFrom turn done cs with
  | case1 => simp
  | case2 a done =>
    intro w mem
    rw [List.mem_singleton.1 mem]
    exact isPart_reverse (List.cons_ne_nil _ _) parts
  | case3 c rest part ih => exact ih (by simpa using part)
  | case4 c rest separator ih => exact ih parts
  | case5 a done c rest separator ih =>
    exact List.forall_mem_cons.2 ⟨isPart_reverse (List.cons_ne_nil _ _) parts, ih (by simp)⟩
  | case6 a done c rest part turns ih =>
    exact List.forall_mem_cons.2
      ⟨isPart_reverse (List.cons_ne_nil _ _) parts, ih (by simpa using part)⟩
  | case7 a done c rest part unturned ih =>
    exact ih (List.forall_mem_cons.2 ⟨by simpa using part, parts⟩)

/-- Segments are not empty, and they are made of letters and digits. -/
theorem isPart_of_segments {cs w : List Char} (mem : w ∈ segments turn cs) :
    w ≠ [] ∧ ∀ c ∈ w, isPart c = true :=
  segmentsFrom_isPart [] cs (by simp) w mem

/-- Segments in lower case, such as the words of a name. -/
theorem small_of_segments {cs w : List Char} (mem : w ∈ (segments turn cs).map lower) :
    w ≠ [] ∧ Small w := by
  obtain ⟨v, segment, rfl⟩ := List.mem_map.1 mem
  obtain ⟨filled, parts⟩ := isPart_of_segments segment
  exact ⟨by simpa [lower] using filled, small_lower parts⟩

private theorem segmentsFrom_flatten (done cs : List Char) (parts : ∀ c ∈ done, isPart c = true) :
    (segmentsFrom turn done cs).flatten = done.reverse ++ cs.filter isPart := by
  fun_induction segmentsFrom turn done cs with
  | case1 => simp
  | case2 a done => simp
  | case3 c rest part ih => simp [ih (by simpa using part), part]
  | case4 c rest separator ih => simp [ih parts, separator]
  | case5 a done c rest separator ih =>
    have separator : isPart c = false := by simpa using separator
    simp [ih (by simp), separator]
  | case6 a done c rest part turns ih =>
    have part : isPart c = true := by simpa using part
    simp [ih (by simpa using part), part]
  | case7 a done c rest part unturned ih =>
    have part : isPart c = true := by simpa using part
    simp [ih (List.forall_mem_cons.2 ⟨part, parts⟩), part]

/-- No letter and no digit of a name is lost. -/
theorem segments_flatten (turn : Turn) (cs : List Char) :
    (segments turn cs).flatten = cs.filter isPart :=
  segmentsFrom_flatten [] cs (by simp)

/-- A separator stands between the two texts, or the case turns there. -/
def Divided (x y : List Char) : Prop :=
  ∀ a, x.getLast? = some a → isPart a = true →
    ∃ b rest, y = b :: rest ∧ caseTurn none a b rest.head? = true

theorem segments_append (cased : turn.Cased) {x y : List Char} (divided : Divided x y) :
    segments turn (x ++ y) = segments turn x ++ segments turn y := by
  rcases List.eq_nil_or_concat x with rfl | ⟨x, a, rfl⟩
  · rfl
  · rw [List.concat_eq_append] at *
    cases part : isPart a with
    | true =>
      obtain ⟨b, rest, rfl, turns⟩ := divided a List.getLast?_concat part
      rw [List.append_assoc, List.singleton_append]
      exact segmentsFrom_turn cased part turns [] x
    | false =>
      have alone := segmentsFrom_separator cased part [] x []
      simp only [segments, segmentsFrom, List.append_nil] at alone
      rw [List.append_assoc, List.singleton_append, segments, segments,
        segmentsFrom_separator cased part, alone]

end Cuts

/-! ## Joined words -/

theorem join_cons {separator w : List Char} {rest : List (List Char)} (more : rest ≠ []) :
    join separator (w :: rest) = w ++ separator ++ join separator rest := by
  cases rest with
  | nil => exact absurd rfl more
  | cons v rest => rfl

/-- The last word of joined words stands behind all that is in front of it. -/
theorem join_concat (separator : List Char) (ws : List (List Char)) (w : List Char) :
    join separator (ws ++ [w]) = (ws.map (· ++ separator)).flatten ++ w := by
  induction ws with
  | nil => rfl
  | cons v ws ih =>
    rw [List.cons_append, join_cons (by simp), ih]
    simp

theorem join_filter {p : Char → Bool} {separator : Char} (none : p separator = false)
    {ws : List (List Char)} (words : ∀ w ∈ ws, ∀ c ∈ w, p c = true) :
    (join [separator] ws).filter p = ws.flatten := by
  induction ws with
  | nil => rfl
  | cons w ws ih =>
    obtain ⟨first, rest⟩ := List.forall_mem_cons.1 words
    by_cases more : ws = []
    · simpa [more, join] using List.filter_eq_self.2 first
    · rw [join_cons more, List.filter_append, List.filter_append, List.filter_eq_self.2 first,
        ih rest]
      simp [none]

/-- Joined words are cut one by one. -/
theorem segments_join {turn : Turn} (cased : turn.Cased) {separator : Char}
    (none : isPart separator = false) (ws : List (List Char)) :
    segments turn (join [separator] ws) = ws.flatMap (segments turn) := by
  induction ws with
  | nil => rfl
  | cons w ws ih =>
    by_cases more : ws = []
    · simp [more, join]
    · rw [join_cons more, List.append_assoc, List.singleton_append, segments,
        segmentsFrom_separator cased none, ← segments, ih, List.flatMap_cons]

/-- Words that are no further cut are got back when they are joined. -/
theorem segments_join_of_alone {turn : Turn} (cased : turn.Cased) {separator : Char}
    (none : isPart separator = false) {ws : List (List Char)}
    (alone : ∀ w ∈ ws, segments turn w = [w]) : segments turn (join [separator] ws) = ws := by
  rw [segments_join cased none, List.flatMap_def, List.map_congr_left alone, ← List.flatMap_def,
    List.flatMap_singleton']

end EntityGraph.Name
