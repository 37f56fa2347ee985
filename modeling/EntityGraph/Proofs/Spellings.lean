import EntityGraph.Proofs.WordPattern

/-!
One name in several spellings. Snake case cuts a name where the case turns, and its digits stay with
the letters in front of them; the words are cut at digits as well. So a name, its snake case and the
joined words of either have the same words, and all spellings that are put together from the words
agree on them.
-/
namespace EntityGraph.Name

/-! ## Names from the left to the right -/

/-- A name grows by separators and by last words. -/
@[elab_as_elim]
theorem induction_lastWord {motive : List Char → Prop} (nil : motive [])
    (separator : ∀ cs c, isPart c = false → motive cs → motive (cs ++ [c]))
    (word : ∀ front word, LastWord front word → motive front → motive (front ++ word))
    (cs : List Char) : motive cs := by
  induction length : cs.length using Nat.strong_induction_on generalizing cs with
  | _ n ih =>
    subst length
    rcases List.eq_nil_or_concat cs with rfl | ⟨init, c, rfl⟩
    · exact nil
    · rw [List.concat_eq_append] at *
      cases part : isPart c with
      | false => exact separator init c part (ih _ (by simp) init rfl)
      | true =>
        obtain ⟨front, w, split, last⟩ := exists_lastWord List.getLast?_concat part
        have shorter : front.length < (init ++ [c]).length := by
          have filled := List.length_pos_of_ne_nil last.filled
          rw [split, List.length_append]
          omega
        rw [split]
        exact word front w last (ih _ shorter front rfl)

/-- Nothing is cut off at a separator at the end. -/
theorem segments_concat_separator {turn : Turn} (cased : turn.Cased) {c : Char}
    (separator : isPart c = false) (cs : List Char) :
    segments turn (cs ++ [c]) = segments turn cs := by
  rw [segments, segmentsFrom_separator cased separator, ← segments]
  exact List.append_nil _

/-- The words of a name are those of its segments. -/
theorem segments_wordTurn (cs : List Char) :
    segments wordTurn cs = (segments caseTurn cs).flatMap (segments wordTurn) := by
  induction cs using induction_lastWord with
  | nil => rfl
  | separator cs c separator ih =>
    rw [segments_concat_separator cased_wordTurn separator,
      segments_concat_separator cased_caseTurn separator, ih]
  | word front word last ih =>
    rw [segments_append cased_wordTurn last.divided, last.segments_eq, List.flatMap_append,
      List.flatMap_singleton, ih]

/-- Every segment is a word without case turns. -/
theorem segments_of_mem {cs w : List Char} (mem : w ∈ segments caseTurn cs) :
    segments caseTurn w = [w] := by
  induction cs using induction_lastWord with
  | nil => cases mem
  | separator cs c separator ih =>
    rw [segments_concat_separator cased_caseTurn separator] at mem
    exact ih mem
  | word front word last ih =>
    rw [last.segments_eq, List.mem_append, List.mem_singleton] at mem
    rcases mem with mem | rfl
    · exact ih mem
    · obtain ⟨capitals, small, solid, rfl⟩ := last.solid
      exact segments_solid solid last.filled

/-! ## Case -/

@[simp] theorem isDigit_toLower (c : Char) : c.toLower.isDigit = c.isDigit := by
  cases upper : c.isUpper with
  | true => rw [isDigit_of_isLower (isLower_toLower upper), isDigit_of_isUpper upper]
  | false => rw [toLower_of_not_isUpper upper]

@[simp] theorem isDigit_toUpper (c : Char) : c.toUpper.isDigit = c.isDigit := by
  cases small : c.isLower with
  | true => rw [isDigit_of_isUpper (isUpper_toUpper small), isDigit_of_isLower small]
  | false => rw [toUpper_of_not_isLower small]

@[simp] theorem isPart_toUpper (c : Char) : isPart c.toUpper = isPart c := by
  cases small : c.isLower with
  | true => rw [isPart_of_isUpper (isUpper_toUpper small), isPart_iff.2 (.inr (.inl small))]
  | false => rw [toUpper_of_not_isLower small]

/-- In front of a small letter or a digit, only digits and letters are told apart. -/
theorem wordTurn_small {b : Char} (small : b.isUpper = false) (before : Option Char) (a : Char)
    (after : Option Char) : wordTurn before a b after = (a.isDigit != b.isDigit) := by
  simp [wordTurn, caseTurn, small]

theorem lower_cons (c : Char) (w : List Char) : lower (c :: w) = c.toLower :: lower w := rfl

private theorem segmentsFrom_lower {a : Char} {done cs : List Char}
    (whole : segmentsFrom caseTurn (a :: done) cs = [(a :: done).reverse ++ cs])
    (open_ : List Char) :
    segmentsFrom wordTurn (lower (a :: open_)) (lower cs) =
      (segmentsFrom wordTurn (a :: open_) cs).map lower := by
  induction cs generalizing a done open_ with
  | nil => simp [lower, segmentsFrom]
  | cons c rest ih =>
    -- A cut in front of `c` would leave less than all for the first segment.
    simp only [segmentsFrom] at whole
    split_ifs at whole with apart turns
    · simpa using (List.cons.inj whole).1
    · simpa using (List.cons.inj whole).1
    · have part : isPart c = true := by simpa using apart
      have unturned : caseTurn open_.head? a c rest.head? = false := Bool.not_eq_true _ ▸ turns
      have upright : wordTurn open_.head? a c rest.head? = (a.isDigit != c.isDigit) := by
        rw [wordTurn, unturned, Bool.false_or]
      have lowered : wordTurn (lower open_).head? a.toLower c.toLower (lower rest).head? =
          (a.isDigit != c.isDigit) := by
        rw [wordTurn_small (isUpper_toLower c), isDigit_toLower, isDigit_toLower]
      have whole : segmentsFrom caseTurn (c :: a :: done) rest =
          [(c :: a :: done).reverse ++ rest] := by
        simpa using whole
      have later := ih whole
      simp only [lower_cons, segmentsFrom, isPart_toLower, part, upright, lowered]
      cases a.isDigit != c.isDigit with
      | true => simpa [lower] using later []
      | false => simpa [lower] using later (a :: open_)

/-- Where the case does not turn, the words are the same in lower case. -/
theorem words_lower {w : List Char} (segment : segments caseTurn w = [w]) :
    words (lower w) = words w := by
  have mem : w ∈ segments caseTurn w := by rw [segment]; exact List.mem_singleton_self w
  obtain ⟨filled, parts⟩ := isPart_of_segments mem
  obtain ⟨a, rest, rfl⟩ := List.exists_cons_of_ne_nil filled
  have part := parts a List.mem_cons_self
  rw [segments_cons_part part] at segment
  have cut : segments wordTurn (lower (a :: rest)) =
      (segments wordTurn (a :: rest)).map lower := by
    rw [lower_cons, segments_cons_part (by rwa [isPart_toLower]), segments_cons_part part]
    exact segmentsFrom_lower segment []
  rw [words, cut, words, List.map_map]
  simp

/-- Snake case keeps the words of a name. -/
theorem words_snakeChars (cs : List Char) : words (snakeChars cs) = words cs := by
  have each : ∀ w ∈ segments caseTurn cs,
      (segments wordTurn (lower w)).map lower = (segments wordTurn w).map lower :=
    fun w mem => words_lower (segments_of_mem mem)
  calc words (snakeChars cs)
    _ = ((segments caseTurn cs).map lower |>.flatMap (segments wordTurn)).map lower := by
      rw [words, snakeChars, segments_join cased_wordTurn (by decide)]
    _ = (segments caseTurn cs).flatMap fun w => (segments wordTurn (lower w)).map lower := by
      rw [List.flatMap_map, List.map_flatMap]
    _ = (segments caseTurn cs).flatMap fun w => (segments wordTurn w).map lower := by
      rw [List.flatMap_def, List.map_congr_left each, ← List.flatMap_def]
    _ = words cs := by rw [words, segments_wordTurn, List.map_flatMap]

/-! ## Words -/

/-- The characters of a word are letters, or they are digits. -/
def Uniform (w : List Char) : Prop := ∀ a ∈ w, ∀ b ∈ w, a.isDigit = b.isDigit

theorem Uniform.reverse {w : List Char} (uniform : Uniform w) : Uniform w.reverse :=
  fun a mem b mem' => uniform a (List.mem_reverse.1 mem) b (List.mem_reverse.1 mem')

theorem uniform_singleton (c : Char) : Uniform [c] := by
  simp [Uniform]

theorem Uniform.cons {a c : Char} {done : List Char} (uniform : Uniform (a :: done))
    (same : c.isDigit = a.isDigit) : Uniform (c :: a :: done) := by
  have each : ∀ b ∈ c :: a :: done, b.isDigit = a.isDigit :=
    List.forall_mem_cons.2 ⟨same, fun b mem => uniform b mem a List.mem_cons_self⟩
  exact fun b mem b' mem' => (each b mem).trans (each b' mem').symm

private theorem segmentsFrom_uniform (done cs : List Char) (uniform : Uniform done) :
    ∀ w ∈ segmentsFrom wordTurn done cs, Uniform w := by
  fun_induction segmentsFrom wordTurn done cs with
  | case1 => simp
  | case2 a done => exact List.forall_mem_singleton.2 uniform.reverse
  | case3 c rest part ih => exact ih (uniform_singleton c)
  | case4 c rest separator ih => exact ih uniform
  | case5 a done c rest separator ih =>
    exact List.forall_mem_cons.2 ⟨uniform.reverse, ih (by simp [Uniform])⟩
  | case6 a done c rest part turns ih =>
    exact List.forall_mem_cons.2 ⟨uniform.reverse, ih (uniform_singleton c)⟩
  | case7 a done c rest part unturned ih =>
    refine ih (uniform.cons ?_)
    simp only [wordTurn, Bool.or_eq_true, not_or, Bool.not_eq_true, bne_eq_false_iff_eq]
      at unturned
    exact unturned.2.symm

theorem reaches_uniform {a : Char} {w : List Char} (small : Small w)
    (uniform : ∀ b ∈ w, a.isDigit = b.isDigit) : Reaches wordTurn a w [] := by
  induction w generalizing a with
  | nil => trivial
  | cons b w ih =>
    obtain ⟨⟨part, upper⟩, small'⟩ := List.forall_mem_cons.1 small
    obtain ⟨same, uniform'⟩ := List.forall_mem_cons.1 uniform
    refine ⟨part, fun before => ?_, ih small' fun c mem => same ▸ uniform' c mem⟩
    rw [wordTurn_small upper, same, bne_self_eq_false]

/-- A word of a name as it is written in a spelling: in lower case, with a letter of either case in
    front. -/
theorem alone_of_uniform {a : Char} {w : List Char} (part : isPart a = true) (small : Small w)
    (uniform : ∀ b ∈ w, a.isDigit = b.isDigit) : segments wordTurn (a :: w) = [a :: w] := by
  have cut := segments_reaches part (reaches_uniform small uniform)
  rwa [List.append_nil] at cut

/-- A word of a name. -/
structure IsWord (w : List Char) : Prop where
  filled : w ≠ []
  small : Small w
  uniform : Uniform w

theorem isWord_of_words {cs w : List Char} (mem : w ∈ words cs) : IsWord w := by
  obtain ⟨filled, small⟩ := small_of_segments mem
  obtain ⟨v, segment, rfl⟩ := List.mem_map.1 mem
  have uniform := segmentsFrom_uniform [] cs (by simp [Uniform]) v segment
  refine ⟨filled, small, fun a' inside b' inside' => ?_⟩
  obtain ⟨a, first, rfl⟩ := List.mem_map.1 inside
  obtain ⟨b, second, rfl⟩ := List.mem_map.1 inside'
  rw [isDigit_toLower, isDigit_toLower, uniform a first b second]

theorem IsWord.alone {w : List Char} (word : IsWord w) : segments wordTurn w = [w] := by
  obtain ⟨a, rest, rfl⟩ := List.exists_cons_of_ne_nil word.filled
  obtain ⟨⟨part, -⟩, small⟩ := List.forall_mem_cons.1 word.small
  exact alone_of_uniform part small fun b mem =>
    word.uniform a List.mem_cons_self b (List.mem_cons_of_mem _ mem)

theorem IsWord.alone_capitalize {w : List Char} (word : IsWord w) :
    segments wordTurn (capitalize w) = [capitalize w] := by
  obtain ⟨a, rest, rfl⟩ := List.exists_cons_of_ne_nil word.filled
  obtain ⟨⟨part, -⟩, small⟩ := List.forall_mem_cons.1 word.small
  rw [capitalize, Small.lower_eq small]
  refine alone_of_uniform (by simpa using part) small fun b mem => ?_
  rw [isDigit_toUpper]
  exact word.uniform a List.mem_cons_self b (List.mem_cons_of_mem _ mem)

theorem IsWord.lower_capitalize {w : List Char} (word : IsWord w) : lower (capitalize w) = w := by
  obtain ⟨a, rest, rfl⟩ := List.exists_cons_of_ne_nil word.filled
  obtain ⟨⟨-, upper⟩, small⟩ := List.forall_mem_cons.1 word.small
  have back : a.toUpper.toLower = a := by
    cases letter : a.isLower with
    | true => exact toLower_toUpper letter
    | false => rw [toUpper_of_not_isLower letter, toLower_of_not_isUpper upper]
  rw [capitalize, lower_cons, lower_lower, Small.lower_eq small, back]

/-- Joined words are the words of what they are joined to. -/
theorem words_join {separator : Char} (none : isPart separator = false) {ws : List (List Char)}
    (alone : ∀ w ∈ ws, segments wordTurn w = [w]) :
    words (join [separator] ws) = ws.map lower := by
  rw [words, segments_join_of_alone cased_wordTurn none alone]

theorem words_kebabChars (cs : List Char) : words (kebabChars cs) = words cs := by
  have same : ∀ w ∈ words cs, lower w = w := fun w mem => (isWord_of_words mem).small.lower_eq
  rw [kebabChars, words_join (by decide) fun w mem => (isWord_of_words mem).alone,
    List.map_congr_left same, List.map_id']

theorem words_titleChars (cs : List Char) : words (titleChars cs) = words cs := by
  have alone : ∀ w ∈ (words cs).map capitalize, segments wordTurn w = [w] := by
    intro w member
    obtain ⟨v, mem, rfl⟩ := List.mem_map.1 member
    exact (isWord_of_words mem).alone_capitalize
  have same : ∀ w ∈ words cs, (lower ∘ capitalize) w = w :=
    fun w mem => (isWord_of_words mem).lower_capitalize
  rw [titleChars, words_join (by decide) alone, List.map_map, List.map_congr_left same,
    List.map_id']

/-! ## Spellings -/

/-- The words of a name are what the pattern finds in it. Snake case, kebab case and titles keep
    them, so it makes no difference to a spelling of a name if the name is spelled in one of these
    ways first. -/
theorem respelled (s : String) :
    words s.toList = (found wordPattern (replaced ' ' s.toList)).map lower ∧
      (∀ g ∈ [snake, kebab, title], words (g s).toList = words s.toList) ∧
      ∀ f ∈ [pascal, camel, kebab, title], ∀ g ∈ [snake, kebab, title], f (g s) = f s := by
  have kept : ∀ g ∈ [snake, kebab, title], words (g s).toList = words s.toList := by
    simp [snake, kebab, title, words_snakeChars, words_kebabChars, words_titleChars]
  refine ⟨words_eq_found s.toList, kept, fun f spelling g before => ?_⟩
  have same := kept g before
  simp only [List.mem_cons, List.not_mem_nil, or_false] at spelling
  rcases spelling with rfl | rfl | rfl | rfl
  · simp only [pascal, pascalChars, same]
  · simp only [camel, camelChars, same]
  · simp only [kebab, kebabChars, same]
  · simp only [title, titleChars, same]

/-- A title made from the snake case of a name with acronyms and numbers. -/
theorem respelled_request :
    title ∈ [pascal, camel, kebab, title] ∧ snake ∈ [snake, kebab, title] ∧
      snake "HTTPRequest2v1" = "http_request2v1" ∧
      title (snake "HTTPRequest2v1") = title "HTTPRequest2v1" ∧
      title "HTTPRequest2v1" = "Http Request 2 V 1" := by
  have spelling : title ∈ [pascal, camel, kebab, title] := by simp
  have before : snake ∈ [snake, kebab, title] := by simp
  exact ⟨spelling, before, by decide +kernel,
    (respelled "HTTPRequest2v1").2.2 title spelling snake before, by decide +kernel⟩

end EntityGraph.Name
