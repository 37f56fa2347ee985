import EntityGraph.Proofs.Plurals

/-!
Plurals of compound names. Only the last word of a name is made plural: it reaches to the end of a
name that ends in a letter or a digit, it is found as a whole where it stands alone, and what is in
front of it stays as it is (`plural_compound`). The same plural comes out when the tests are made on
the last word and the edits at the end of the name (`edited_eq`).
-/
namespace EntityGraph.Name

/-! ## Where a pattern finds -/

/-- What a pattern finds in a text, each with all that is in front of it. -/
def foundAt (pattern : Pattern) (front : List Char) : List Char → List (List Char × List Char)
  | [] => []
  | c :: rest =>
    match pattern (c :: rest) with
    | some n =>
      (front, c :: rest.take n) :: foundAt pattern (front ++ c :: rest.take n) (rest.drop n)
    | none => foundAt pattern (front ++ [c]) rest
termination_by cs => cs.length
decreasing_by
  · simp only [List.length_drop, List.length_cons]
    omega
  · simp

theorem map_snd_foundAt (pattern : Pattern) (front cs : List Char) :
    (foundAt pattern front cs).map Prod.snd = found pattern cs := by
  fun_induction foundAt pattern front cs with
  | case1 => rw [found]; rfl
  | case2 front c rest n takes ih => rw [List.map_cons, ih, found, takes]
  | case3 front c rest none ih => rw [ih, found, none]

/-- A pattern that passes over nothing but separators finds its last word at the end of a text that
    ends in a letter or a digit. -/
theorem getLast?_foundAt {pattern : Pattern}
    (passes : ∀ c rest, pattern (c :: rest) = none → isPart c = false) {cs : List Char} {c : Char}
    (last : cs.getLast? = some c) (part : isPart c = true) (front : List Char) :
    ∃ before word, (foundAt pattern front cs).getLast? = some (before, word) ∧
      front ++ cs = before ++ word := by
  fun_induction foundAt pattern front cs with
  | case1 => cases last
  | case2 front d rest n takes ih =>
    -- What the pattern takes here reaches to the end, or the last word is found behind it.
    cases behind : rest.drop n with
    | nil =>
      have whole : rest.take n = rest := List.take_of_length_le (List.drop_eq_nil_iff.1 behind)
      exact ⟨front, d :: rest, by simp [foundAt, whole], rfl⟩
    | cons e after =>
      have split : d :: rest = (d :: rest.take n) ++ (e :: after) := by
        rw [← behind, List.cons_append, List.take_append_drop]
      rw [split, List.getLast?_append_of_ne_nil _ (List.cons_ne_nil e after), ← behind] at last
      obtain ⟨before, word, at_end, same⟩ := ih last
      refine ⟨before, word, ?_, ?_⟩
      · rw [← behind, List.getLast?_cons, at_end, Option.getD_some]
      · rw [← same, split, behind, List.append_assoc]
  | case3 front d rest none ih =>
    cases rest with
    | nil =>
      obtain rfl : d = c := by simpa using last
      rw [passes d [] none] at part
      cases part
    | cons e after =>
      obtain ⟨before, word, at_end, same⟩ := ih (by simpa using last)
      exact ⟨before, word, at_end, by rw [← same]; simp⟩

/-! ## The last word -/

variable {front word cs : List Char}

/-- A name consists of what is in front of its last word and of that word, if it ends in a letter or
    a digit. -/
theorem exists_getLast?_pluralWords {c : Char} (last : cs.getLast? = some c)
    (part : isPart c = true) : ∃ front word,
      (foundAt pluralPattern [] cs).getLast? = some (front, word) ∧ cs = front ++ word ∧
      (pluralWords cs).getLast? = some word := by
  obtain ⟨front, word, at_end, split⟩ :=
    getLast?_foundAt (fun _ _ => isPart_of_pluralPattern) last part []
  refine ⟨front, word, at_end, split, ?_⟩
  rw [← found_pluralPattern, ← map_snd_foundAt pluralPattern [], List.getLast?_map, at_end]
  rfl

/-- The plural of a word that stands alone. -/
theorem pluralChars_word (mem : word ∈ pluralWords cs) : pluralChars word = pluralWord word := by
  have alone : pluralWords word = [word] := by
    rw [← found_pluralPattern] at mem ⊢
    exact found_of_mem mem
  have whole : pluralChars ([] ++ word) = [] ++ pluralWord word :=
    pluralChars_append (by rw [List.nil_append, alone]; rfl)
  exact whole

/-- An irregular plural begins with a capital if the word does. -/
theorem pluralWord_eq_capitalize {plural : List Char}
    (found : irregularPlural? (lower word) = some plural) :
    pluralWord word = if word.head?.any Char.isUpper then capitalize plural else plural := by
  obtain ⟨c, rest, p, ending, rfl, rfl, eq⟩ := pluralWord_irregular found
  have letters := (irregular_of_eq_some found).letters'
  have behind : lower ending = ending := lower_eq_self fun d mem => letters d (.tail p mem)
  rw [eq, capitalize, behind]
  cases upper : c.isUpper <;> simp [upper]

/-! ## Edits at the end of a name -/

/-- What the plural of a name is decided by: its last word, or all of the name if it does not end in
    that word. -/
def pluralTail (cs : List Char) : List Char :=
  match (found pluralPattern cs).getLast? with
  | some word => if word.isSuffixOf cs then word else cs
  | none => cs

/-- The plural of a name, decided by its tail and written at its end. -/
def edited (cs : List Char) : List Char :=
  if cs.isEmpty then []
  else match irregularPlural? (lower (pluralTail cs)) with
    | some plural =>
      cs.take (cs.length - (pluralTail cs).length) ++
        if (pluralTail cs).head?.any Char.isUpper then capitalize plural else plural
    | none =>
      let (dropped, ending) := pluralEnding (lower (pluralTail cs)).reverse
      cs.take (cs.length - dropped) ++ ending

/-- All edits are inside of the tail. -/
theorem edited_append (filled : word ≠ []) (decides : pluralTail (front ++ word) = word) :
    edited (front ++ word) = front ++ pluralWord word := by
  rw [edited, decides, if_neg (by simp [filled])]
  cases found : irregularPlural? (lower word) with
  | some plural =>
    rw [pluralWord_eq_capitalize found]
    simp only [List.length_append, Nat.add_sub_cancel, List.take_left]
  | none =>
    have le := pluralEnding_le (lower word).reverse
    rw [List.length_reverse, length_lower] at le
    rw [pluralWord_regular found, stem, ending]
    simp only [List.length_append, Nat.add_sub_assoc le, List.take_length_add_append,
      List.append_assoc]

/-- A name that does not end in a letter or a digit does not end in a word. -/
theorem pluralTail_eq_self {c : Char} (last : cs.getLast? = some c) (separator : isPart c = false) :
    pluralTail cs = cs := by
  rw [pluralTail, found_pluralPattern]
  cases words : (pluralWords cs).getLast? with
  | none => rfl
  | some word =>
    refine if_neg fun ends => ?_
    obtain ⟨front, rfl⟩ := List.isSuffixOf_iff_suffix.1 ends
    obtain ⟨filled, parts⟩ := isPart_of_segments (List.mem_of_getLast? words)
    rw [List.getLast?_append_of_ne_nil _ filled] at last
    rw [parts c (List.mem_of_getLast? last)] at separator
    cases separator

/-- Behind a character that is no letter, there is an `s` in the plural. -/
theorem pluralWord_concat {c : Char} (upper : c.isUpper = false) (small : c.isLower = false)
    (init : List Char) : pluralWord (init ++ [c]) = init ++ [c] ++ ['s'] := by
  have behind : ending [c] = ['s'] := by
    rw [ending, lower, List.map_singleton, toLower_of_not_isUpper upper, List.reverse_singleton,
      pluralEnding_of_not_isLower small]
  rw [pluralWord_append upper small, pluralWord_regular (regular_of_mem (by simp) upper small),
    stem_eq_self (.inr behind), behind, List.append_assoc]

/-- The plural of a name is the same if the edits are made at the end of the name. -/
theorem edited_eq (cs : List Char) : edited cs = pluralChars cs := by
  rcases List.eq_nil_or_concat cs with rfl | ⟨init, c, split⟩
  · rfl
  · rw [List.concat_eq_append] at split
    have last : cs.getLast? = some c := by rw [split, List.getLast?_concat]
    cases part : isPart c with
    | true =>
      obtain ⟨front, word, -, rfl, words⟩ := exists_getLast?_pluralWords last part
      have filled := (isPart_of_segments (List.mem_of_getLast? words)).1
      have decides : pluralTail (front ++ word) = word := by
        rw [pluralTail, found_pluralPattern, words]
        exact if_pos (List.isSuffixOf_iff_suffix.2 (List.suffix_append front word))
      rw [edited_append filled decides, pluralChars_append words]
    | false =>
      -- The tail is all of the name, and none of the tests holds of it.
      have other : c.isUpper = false ∧ c.isLower = false ∧ c.isDigit = false := by
        simpa [← Bool.not_eq_true, isPart_iff] using part
      have whole : edited ([] ++ cs) = [] ++ pluralWord cs :=
        edited_append (by simp [split]) (pluralTail_eq_self last part)
      rw [List.nil_append, List.nil_append] at whole
      rw [whole, pluralChars, last, split, pluralWord_concat other.1 other.2.1]
      simp only [part, Bool.false_eq_true, if_false]

/-! ## Compound names -/

/-- A name that ends in a letter or a digit consists of what is in front of the last word and of
    that word, which the pattern finds as a whole where it stands alone. The plural of the name is
    what is in front and the plural of the word, an irregular one too, and it is what the edits at
    the end of the name make. -/
theorem plural_compound {s : String} {c : Char} (last : s.toList.getLast? = some c)
    (part : isPart c = true) : ∃ front word : String,
      (foundAt pluralPattern [] s.toList).getLast? = some (front.toList, word.toList) ∧
      s = front ++ word ∧ found pluralPattern word.toList = [word.toList] ∧
      plural s = front ++ plural word ∧
      (∀ own, irregularPlural? (lower word.toList) = some own → plural s = front ++
        String.ofList (if word.toList.head?.any Char.isUpper then capitalize own else own)) ∧
      plural s = String.ofList (edited s.toList) := by
  obtain ⟨front, word, at_end, split, words⟩ := exists_getLast?_pluralWords last part
  have mem := List.mem_of_getLast? words
  have whole : pluralChars s.toList = front ++ pluralWord word := by
    rw [split] at words ⊢
    exact pluralChars_append words
  refine ⟨String.ofList front, String.ofList word, ?_, ?_, ?_, ?_, fun own found => ?_, ?_⟩
  · rw [at_end, String.toList_ofList, String.toList_ofList]
  · rw [← String.ofList_append, ← split, String.ofList_toList]
  · rw [String.toList_ofList]
    exact found_of_mem (found_pluralPattern s.toList ▸ mem)
  · rw [plural, plural, String.toList_ofList, whole, pluralChars_word mem, String.ofList_append]
  · rw [String.toList_ofList] at found ⊢
    rw [plural, whole, pluralWord_eq_capitalize found, String.ofList_append]
  · rw [edited_eq, plural]

/-- Of a name with a capitalized person at its end, only the person is made plural. -/
theorem plural_compound_person :
    "menü2HTTPPerson".toList.getLast? = some 'n' ∧ isPart 'n' = true ∧
      (foundAt pluralPattern [] "menü2HTTPPerson".toList).getLast? =
        some ("menü2HTTP".toList, "Person".toList) ∧
      plural "menü2HTTPPerson" = "menü2HTTP" ++ plural "Person" ∧ plural "Person" = "People" := by
  have last : "menü2HTTPPerson".toList.getLast? = some 'n' := by decide +kernel
  have here : (foundAt pluralPattern [] "menü2HTTPPerson".toList).getLast? =
      some ("menü2HTTP".toList, "Person".toList) := by
    decide +kernel
  obtain ⟨front, word, at_end, -, -, whole, -, -⟩ := plural_compound last (by decide)
  obtain ⟨before, behind⟩ := Prod.mk.inj (Option.some.inj (at_end.symm.trans here))
  obtain rfl := String.toList_inj.1 before
  obtain rfl := String.toList_inj.1 behind
  exact ⟨last, by decide, here, whole, by decide +kernel⟩

end EntityGraph.Name
