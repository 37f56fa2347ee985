import EntityGraph.Proofs.Inverse
import EntityGraph.Proofs.PluralCuts

/-!
Paths of relations. A relation to many has the plural of its target as its name, and its path is the
plural of its name again. The path still names the relation if the second plural changes nothing.
That fails for the plurals that do not end in `s`, such as `people`, and for the few words of which
an `s` makes a singular that the table of plurals lists, such as `statu`.
-/
namespace EntityGraph

namespace Name

/-- A word that is its own plural. -/
def Stays (word : List Char) : Prop :=
  irregularPlural? (lower word) = none ∧ ending word = []

/-- A word with a plural that is not its own plural: an irregular one that does not end in `s`, or
    one that is a singular itself. -/
def Repluralized (word : List Char) : Prop :=
  match irregularPlural? (lower word) with
  | some plural => plural.getLast? ≠ some 's'
  | none => ending word = ['s'] ∧ endsInCapitals word = false ∧
      irregularPlural? (lower word ++ ['s']) ≠ none

instance (word : List Char) : Decidable (Repluralized word) :=
  match found : irregularPlural? (lower word) with
  | some plural => decidable_of_iff (plural.getLast? ≠ some 's') (by rw [Repluralized, found])
  | none => decidable_of_iff (ending word = ['s'] ∧ endsInCapitals word = false ∧
      irregularPlural? (lower word ++ ['s']) ≠ none) (by rw [Repluralized, found])

/-! ## Words in front of an ending -/

/-- A word to which one of the longer endings was put is its own plural. -/
theorem stays_append_ending {word : List Char} (changed : ending word ≠ [])
    (long : ending word ≠ ['s']) (z : List Char) : Stays (z ++ ending word) := by
  obtain ⟨x, e⟩ : ∃ x, ending word = x ++ ['e', 's'] := by
    have all : ∀ e ∈ endings, e.2 ≠ [] → e.2 ≠ ['s'] →
        e.2 = e.2.dropLast.dropLast ++ ['e', 's'] := by
      decide +kernel
    exact ⟨_, all _ (pluralEnding_mem _) changed long⟩
  have spelled : (lower (z ++ ending word)).reverse = 's' :: 'e' :: (lower (z ++ x)).reverse := by
    rw [e, ← List.append_assoc, lower_append, List.reverse_append]
    rfl
  constructor
  · cases found : irregularPlural? (lower (z ++ ending word)) with
    | none => rfl
    | some plural => exact absurd (by rw [spelled]; rfl) (irregular_of_eq_some found).notPlural
  · rw [Name.ending, spelled]
    rfl

/-- Behind an `s`, no single `s` is put. -/
private theorem pluralEnding_s (rest : List Char) : (pluralEnding ('s' :: rest)).2 ≠ ['s'] := by
  match rest with
  | [] => decide
  | a :: rest => by_cases a = 's' <;> simp_all [pluralEnding]

/-- Behind a letter that takes an `s`, the `s` makes a plural. -/
theorem ending_concat_s {word z : List Char} {u : Char} (short : ending (word ++ [u]) = ['s']) :
    ending (z ++ [u, 's']) = [] := by
  have reversed : (lower (word ++ [u])).reverse = u.toLower :: (lower word).reverse := by
    simp [lower]
  have spelled : (lower (z ++ [u, 's'])).reverse = 's' :: u.toLower :: (lower z).reverse := by
    simp [lower]
  have other : u.toLower ≠ 's' := by
    intro same
    rw [ending, reversed, same] at short
    exact pluralEnding_s _ short
  rw [ending, spelled]
  simp [pluralEnding, other]

/-! ## Plurals of plurals -/

variable {front word : List Char}

/-- Kebab case keeps the letters and digits of a name. -/
theorem kebabChars_filter (cs : List Char) :
    (kebabChars cs).filter isPart = lower (cs.filter isPart) := by
  have parts : ∀ w ∈ words cs, ∀ c ∈ w, isPart c = true :=
    fun w mem c mem' => ((small_of_segments mem).2 c mem').1
  rw [kebabChars, join_filter (by decide) parts, words, ← segments_flatten wordTurn, lower,
    List.map_flatten]
  rfl

/-- One more plural shows in kebab case, unless the last word is its own plural. -/
theorem LastWord.kebab_plural_iff (last : LastWord front word) :
    kebabChars (pluralChars (front ++ word)) = kebabChars (front ++ word) ↔ Stays word := by
  rw [last.plural_eq]
  constructor
  · intro same
    have letters := congrArg (List.filter isPart) same
    simp only [kebabChars_filter, List.filter_append, lower_append, List.append_cancel_left_eq,
      List.filter_eq_self.2 last.parts, List.filter_eq_self.2 (isPart_pluralWord last.parts)]
      at letters
    exact lower_pluralWord_eq_iff.1 letters
  · intro stays
    rw [pluralWord_eq_self stays.1 stays.2]

/-- Two letters are no word with a plural of its own. -/
private theorem irregularPlural?_pair (u : Char) : irregularPlural? (lower [u, 's']) = none := by
  cases found : irregularPlural? (lower [u, 's']) with
  | none => rfl
  | some plural => simpa [lower] using (irregular_of_eq_some found).three

/-- Behind an `s` that was put behind a word, a second plural shows only if a singular has come
    about. -/
private theorem LastWord.kebab_plural_s_iff (last : LastWord front word)
    (short : ending word = ['s']) :
    kebabChars (pluralChars (front ++ (word ++ ['s']))) = kebabChars (front ++ (word ++ ['s'])) ↔
      ¬ (endsInCapitals word = false ∧ irregularPlural? (lower word ++ ['s']) ≠ none) := by
  have changed : ending word ≠ [] := by simp [short]
  have same := stem_eq_self (.inr short)
  cases ends : endsInCapitals word with
  | true =>
    obtain ⟨capitals, u, split, -, second⟩ := last.append_acronym_ending changed (same.symm ▸ ends)
    rw [same] at split
    rw [short] at second
    subst split
    have back : front ++ (capitals ++ [u] ++ ['s']) = front ++ capitals ++ [u, 's'] := by simp
    rw [back, second.kebab_plural_iff]
    simpa using show Stays [u, 's'] from
      ⟨irregularPlural?_pair u, ending_concat_s (z := []) short⟩
  | false =>
    have last' := last.append_stem changed (by simpa [same] using last.filled) (same.symm ▸ ends)
    rw [same, short] at last'
    obtain ⟨w, u, rfl⟩ := (List.eq_nil_or_concat word).resolve_left last.filled
    rw [List.concat_eq_append] at *
    have unchanged : ending (w ++ [u] ++ ['s']) = [] := by
      simpa using ending_concat_s (z := w) short
    rw [last'.kebab_plural_iff, Stays, unchanged, lower_append _ ['s']]
    simp [lower]

/-- A second plural shows in kebab case exactly behind the words that are made plural twice. -/
theorem kebab_plural_plural_iff {cs : List Char} (filled : cs ≠ [])
    (parts : ∀ c ∈ cs, isPart c = true) :
    kebabChars (pluralChars (pluralChars cs)) = kebabChars (pluralChars cs) ↔
      ¬ Repluralized (lastWord cs) := by
  obtain ⟨front, word, rfl, last⟩ := exists_lastWord_of_parts filled parts
  have parts := (List.forall_mem_append.1 parts).1
  rw [last.plural_eq, last.lastWord_eq, Repluralized]
  cases found : irregularPlural? (lower word) with
  | some plural =>
    rw [(last.irregular found).kebab_plural_iff, Stays, ending,
      lower_pluralWord_irregular found, (irregular_of_eq_some found).unchanged]
    simp [(irregular_of_eq_some found).settled]
  | none =>
    rw [pluralWord_regular found]
    by_cases nothing : ending word = []
    · rw [nothing, stem_eq_self (.inl nothing), List.append_nil, last.kebab_plural_iff]
      simp [Stays, found, nothing]
    by_cases short : ending word = ['s']
    · rw [short, stem_eq_self (.inr short), last.kebab_plural_s_iff short]
      simp
    · -- The last word of the plural ends in the ending, wherever it begins.
      have are : Small (ending word) := small_of_isLower isLower_of_ending
      have all : ∀ c ∈ front ++ (stem word ++ ending word), isPart c = true := by
        rw [← pluralWord_regular found]
        exact List.forall_mem_append.2 ⟨parts, isPart_pluralWord last.parts⟩
      obtain ⟨front', word', split, last'⟩ := exists_lastWord_of_parts (by simp [nothing]) all
      rw [← List.append_assoc] at split
      obtain ⟨z, rfl, -, -⟩ := last'.of_append_small are nothing split
      rw [← List.append_assoc, split, last'.kebab_plural_iff]
      simp [stays_append_ending nothing short z, short]

/-! ## Camel case -/

private theorem isPart_capitalize {w : List Char} (parts : ∀ c ∈ w, isPart c = true) :
    ∀ c ∈ capitalize w, isPart c = true := by
  cases w with
  | nil => exact parts
  | cons c w =>
    obtain ⟨first, rest⟩ := List.forall_mem_cons.1 parts
    refine List.forall_mem_cons.2 ⟨?_, fun d mem => (small_lower rest d mem).1⟩
    cases small : c.isLower with
    | true => exact isPart_of_isUpper (isUpper_toUpper small)
    | false => rwa [toUpper_of_not_isLower small]

/-- The camel case of a name of letters and digits is one as well. -/
theorem isPart_camelChars {cs : List Char} (filled : cs ≠ []) (parts : ∀ c ∈ cs, isPart c = true) :
    camelChars cs ≠ [] ∧ ∀ c ∈ camelChars cs, isPart c = true := by
  have some : words cs ≠ [] := by
    intro none
    have lost := segments_flatten wordTurn cs
    rw [List.map_eq_nil_iff.1 none, List.filter_eq_self.2 parts] at lost
    exact filled lost.symm
  have each : ∀ w ∈ words cs, w ≠ [] ∧ ∀ c ∈ w, isPart c = true := by
    intro w mem
    obtain ⟨filled, small⟩ := small_of_segments mem
    exact ⟨filled, fun c mem' => (small c mem').1⟩
  obtain ⟨w, rest, split⟩ := List.exists_cons_of_ne_nil some
  rw [split, List.forall_mem_cons] at each
  rw [camelChars, split]
  refine ⟨List.append_ne_nil_of_left_ne_nil each.1.1 _, List.forall_mem_append.2 ⟨each.1.2, ?_⟩⟩
  intro c mem
  obtain ⟨v, mem', mem⟩ := List.mem_flatten.1 mem
  obtain ⟨u, mem'', rfl⟩ := List.mem_map.1 mem'
  exact isPart_capitalize (each.2 u mem'').2 c mem

end Name

/-! ## Relations -/

namespace Draft

variable {d : Draft String} {type : RelationType} {owner target : String}

/-- A relation to many that was given no name is named by the plural of its target. -/
theorem fill_name_of_isToMany (owner target : String) (many : type.isToMany = true)
    (unnamed : Relation.filled? d.name = none) :
    (d.fill type owner target).name = Name.plural (Name.camel target) := by
  have other : type ≠ .morphTo := by
    rintro rfl
    cases many
  simp [fill, unnamed, Convention.relationName, other, many]

/-- A relation to many that was given no name is built, and its path is its name in kebab case
    exactly if the last word of its target is not made plural twice. -/
theorem apiPath_eq_kebab_iff (ends : d.ends = .ok (type, owner, target))
    (many : type.isToMany = true) (unnamed : Relation.filled? d.name = none) (named : target ≠ "")
    (letters : ∀ c ∈ target.toList, Name.isPart c = true) :
    ∃ r, d.build = .ok r ∧ r.name = Name.plural (Name.camel target) ∧
      (r.apiPath = Name.kebab r.name ↔
        ¬ Name.Repluralized (Name.lastWord (Name.camel target).toList)) := by
  have name := fill_name_of_isToMany owner target many unnamed
  refine ⟨d.fill type owner target, build_eq_ok.2 ⟨type, owner, target, ends, rfl⟩, name, ?_⟩
  obtain ⟨filled, parts⟩ :=
    Name.isPart_camelChars (mt String.toList_eq_nil_iff.1 named) letters
  rw [Relation.apiPath, name, Name.camel, String.toList_ofList,
    ← Name.kebab_plural_plural_iff filled parts]
  simp only [Name.kebab, Name.plural, String.toList_ofList, String.ofList_inj]

/-- Users with many posts, of whatever kind the relation is. -/
def posts (type : RelationType) : Draft String where
  defaultLocalKey := "id"
  type := some type
  owner := some "User"
  target := some "BlogPost"

/-- The path of the relation to posts is `blog-posts`, like its name. -/
theorem apiPath_eq_kebab_iff_posts :
    (posts .morphMany).ends = .ok (.morphMany, "User", "BlogPost") ∧
      RelationType.morphMany.isToMany = true ∧
      Relation.filled? (posts .morphMany).name = none ∧ "BlogPost" ≠ "" ∧
      (∀ c ∈ "BlogPost".toList, Name.isPart c = true) ∧
      ∃ r, (posts .morphMany).build = .ok r ∧ r.name = "blogPosts" ∧ r.apiPath = "blog-posts" := by
  have ends : (posts .morphMany).ends = .ok (.morphMany, "User", "BlogPost") :=
    ends_eq_ok.2 ⟨rfl, Relation.filled?_some (by decide), rfl, fun _ => by decide⟩
  have letters : ∀ c ∈ "BlogPost".toList, Name.isPart c = true :=
    List.all_eq_true.1 (by decide +kernel)
  obtain ⟨r, built, name, path⟩ := apiPath_eq_kebab_iff ends rfl rfl (by decide) letters
  have same := path.2 (by decide +kernel)
  have name : r.name = "blogPosts" := name.trans (by decide +kernel)
  exact ⟨ends, rfl, rfl, by decide, letters, r, built, name,
    same.trans (name ▸ by decide +kernel)⟩

/-- The relation to people is named `people`, and its path is `peoples`. -/
theorem apiPath_people :
    ∃ r, { posts .hasMany with target := some "Person" }.build = .ok r ∧ r.name = "people" ∧
      Name.kebab r.name = "people" ∧ r.apiPath = "peoples" := by
  have ends : { posts .hasMany with target := some "Person" }.ends =
      .ok (.hasMany, "User", "Person") :=
    ends_eq_ok.2 ⟨rfl, Relation.filled?_some (by decide), rfl, fun _ => by decide⟩
  exact ⟨_, build_eq_ok.2 ⟨_, _, _, ends, rfl⟩, by decide +kernel, by decide +kernel,
    by decide +kernel⟩

end Draft

end EntityGraph
