import EntityGraph.Proofs.Headings

/-!
Directives as they stand in a text. Reading goes from mark to mark, so the directives of a text are
those of its beginning and those of the rest, wherever no mark is cut in two
(`directiveOccurrences_append`). Of equal names the last one counts.
-/
namespace EntityGraph.Schema

variable {name arg rest front back cs : List Char} {c : Char}

/-! ## Single marks -/

theorem argument?_eq_some : argument? cs = some (arg, rest) ↔
    cs = '(' :: (arg ++ ')' :: rest) ∧ ')' ∉ arg := by
  constructor
  · intro found
    unfold argument? at found
    split at found
    · rename_i inner
      split at found
      · rename_i c behind dropped
        obtain ⟨rfl, rfl⟩ := Prod.mk.inj (Option.some.inj found)
        have last := Text.head_dropWhile (by rw [dropped]; rfl : c ∈ (inner.dropWhile (· != ')')).head?)
        obtain rfl : c = ')' := by simpa using last
        refine ⟨?_, fun inside => ?_⟩
        · rw [← dropped, List.takeWhile_append_dropWhile]
        · simpa using List.mem_takeWhile_imp inside
      · cases found
    · cases found
  · rintro ⟨rfl, open'⟩
    have inside : ∀ c ∈ arg, (c != ')') = true := by
      intro c member
      simp only [bne_iff_ne]
      rintro rfl
      exact open' member
    have stops : ∀ c ∈ (')' :: rest).head?, (c != ')') = false := by
      rintro c ⟨⟩
      rfl
    simp only [argument?, Text.takeWhile_append_of_head inside stops,
      Text.dropWhile_append_of_head inside stops]

theorem argument?_eq_none :
    argument? cs = none ↔ ∀ inner, cs = '(' :: inner → ')' ∉ inner := by
  constructor
  · rintro none inner rfl closed
    obtain ⟨arg, rest, rfl, open'⟩ := List.eq_append_cons_of_mem closed
    rw [argument?_eq_some.2 ⟨rfl, open'⟩] at none
    cases none
  · intro unclosed
    cases found : argument? cs with
    | none => rfl
    | some pair =>
      obtain ⟨rfl, -⟩ := argument?_eq_some.1 found
      exact absurd (by simp) (unclosed _ rfl)

theorem directiveOccurrences_other (other : c ≠ '@') (rest : List Char) :
    directiveOccurrences (c :: rest) = directiveOccurrences rest := by
  rw [directiveOccurrences, if_neg other]

theorem directiveOccurrences_plain (plain : '@' ∉ front) (rest : List Char) :
    directiveOccurrences (front ++ rest) = directiveOccurrences rest := by
  induction front with
  | nil => rfl
  | cons c front ih =>
    simp only [List.mem_cons, not_or] at plain
    rw [List.cons_append, directiveOccurrences_other (Ne.symm plain.1), ih plain.2]

theorem directiveOccurrences_nameless (stops : ∀ c ∈ rest.head?, Text.isWordChar c = false) :
    directiveOccurrences ('@' :: rest) = directiveOccurrences rest := by
  have none : rest.takeWhile Text.isWordChar = [] :=
    Text.takeWhile_of_head stops
  rw [directiveOccurrences, if_pos rfl]
  simp [none]

/-- Behind a name the argument is read, if there is one. -/
theorem directiveOccurrences_named (named : name ≠ [])
    (word : ∀ c ∈ name, Text.isWordChar c = true)
    (stops : ∀ c ∈ rest.head?, Text.isWordChar c = false) :
    directiveOccurrences ('@' :: (name ++ rest)) =
      match argument? rest with
      | some (arg, behind) =>
        (String.ofList name, some (String.ofList arg)) :: directiveOccurrences behind
      | none => (String.ofList name, none) :: directiveOccurrences rest := by
  have dropped := Text.dropWhile_append_of_head word stops
  rw [directiveOccurrences, if_pos rfl]
  simp only [Text.takeWhile_append_of_head word stops, List.isEmpty_iff, named, if_false]
  split
  · rename_i found
    rw [dropped] at found
    rw [found]
  · rename_i found
    rw [dropped] at found
    rw [found, dropped]

/-! ## Parts of a text -/

/-- At the end of the text the argument of a directive is open. -/
def ArgumentOpen (cs : List Char) : Prop :=
  ∃ front name inner, cs = front ++ '@' :: (name ++ '(' :: inner) ∧ name ≠ [] ∧
    (∀ c ∈ name, Text.isWordChar c = true) ∧ ')' ∉ inner

theorem ArgumentOpen.append (front : List Char) (unclosed : ArgumentOpen cs) :
    ArgumentOpen (front ++ cs) := by
  obtain ⟨before, name, inner, rfl, rest⟩ := unclosed
  exact ⟨front ++ before, name, inner, by simp, rest⟩

theorem not_argumentOpen (plain : '(' ∉ cs) : ¬ ArgumentOpen cs := by
  rintro ⟨before, name, inner, rfl, -⟩
  exact plain (by simp)

private theorem head_append {p : Char → Bool} (stops : ∀ c ∈ front.head?, p c = false)
    (stops' : ∀ c ∈ back.head?, p c = false) : ∀ c ∈ (front ++ back).head?, p c = false := by
  cases front with
  | nil => exact stops'
  | cons c rest => exact stops

/-- Nothing is read across the end of a text, unless an argument is open there and closed behind
    it, or a name or its argument goes on. -/
theorem directiveOccurrences_append (shut : ')' ∈ back → ¬ ArgumentOpen front)
    (apart : ∀ c ∈ back.head?, Text.isWordChar c = false ∧ c ≠ '(') :
    directiveOccurrences (front ++ back) =
      directiveOccurrences front ++ directiveOccurrences back := by
  have later : ∀ c ∈ back.head?, Text.isWordChar c = false := fun c first => (apart c first).1
  fun_induction directiveOccurrences front with
  | case1 => rfl
  | case2 rest name nameless ih =>
    have empty : rest.takeWhile Text.isWordChar = [] := List.isEmpty_iff.1 nameless
    have stops : ∀ c ∈ rest.head?, Text.isWordChar c = false := by
      cases rest with
      | nil => nofun
      | cons c rest =>
        rintro d ⟨⟩
        by_contra word
        simp [List.takeWhile_cons, word] at empty
    rw [List.cons_append, directiveOccurrences_nameless (head_append stops later)]
    exact ih fun closed unclosed => shut closed (unclosed.append ['@'])
  | case3 rest name after filled arg behind found ih =>
    obtain ⟨given, inside⟩ := argument?_eq_some.1 found
    have split : rest = name ++ after := List.takeWhile_append_dropWhile.symm
    have named : name ≠ [] := fun empty => filled (List.isEmpty_iff.2 empty)
    have word : ∀ c ∈ name, Text.isWordChar c = true := fun c => List.mem_takeWhile_imp
    have stops : ∀ c ∈ after.head?, Text.isWordChar c = false := fun c => Text.head_dropWhile
    have found' : argument? (after ++ back) = some (arg, behind ++ back) :=
      argument?_eq_some.2 ⟨by simp [given], inside⟩
    -- What is open behind the argument is open at the end of the whole text.
    have shut' : ')' ∈ back → ¬ ArgumentOpen behind := by
      intro closed unclosed
      refine shut closed ?_
      have whole : '@' :: rest = '@' :: (name ++ '(' :: (arg ++ [')'])) ++ behind := by
        simp [split, given]
      exact whole ▸ unclosed.append _
    rw [List.cons_append, split, List.append_assoc,
      directiveOccurrences_named named word (head_append stops later), found']
    simp only [ih shut', List.cons_append]
  | case4 rest name after filled none ih =>
    have split : rest = name ++ after := List.takeWhile_append_dropWhile.symm
    have named : name ≠ [] := fun empty => filled (List.isEmpty_iff.2 empty)
    have word : ∀ c ∈ name, Text.isWordChar c = true := fun c => List.mem_takeWhile_imp
    have stops : ∀ c ∈ after.head?, Text.isWordChar c = false := fun c => Text.head_dropWhile
    -- An argument could only be closed behind the end, and then it would be open there.
    have none' : argument? (after ++ back) = Option.none := by
      rw [argument?_eq_none] at none ⊢
      intro inner same
      rcases shape : after with _ | ⟨c, tail⟩
      · rw [shape, List.nil_append] at same
        exact absurd rfl (apart '(' (by rw [same]; rfl)).2
      · rw [shape] at same
        obtain ⟨rfl, rfl⟩ := List.cons.inj same
        have open' : ')' ∉ tail := none tail shape
        have unclosed : ArgumentOpen ('@' :: rest) :=
          ⟨[], name, tail, by rw [split, shape]; rfl, named, word, open'⟩
        intro closed
        rcases List.mem_append.1 closed with inside | behind
        · exact open' inside
        · exact shut behind unclosed
    have shut' : ')' ∈ back → ¬ ArgumentOpen after := by
      intro closed unclosed
      refine shut closed ?_
      have whole : '@' :: rest = '@' :: name ++ after := by simp [split]
      exact whole ▸ unclosed.append _
    rw [List.cons_append, split, List.append_assoc,
      directiveOccurrences_named named word (head_append stops later), none']
    simp only [ih shut', List.cons_append]
  | case5 c rest other ih =>
    rw [List.cons_append, directiveOccurrences_other other]
    exact ih fun closed unclosed => shut closed (unclosed.append [c])

/-- Blanks end a directive without an argument. -/
theorem apart_of_blank (blank : Text.isBlank c = true) : Text.isWordChar c = false ∧ c ≠ '(' := by
  refine ⟨Text.notWord_of_isBlank blank, ?_⟩
  rintro rfl
  cases blank

/-! ## Directives of a text -/

namespace Directives

variable {ds : Directives} {name other : String}

theorem put_of_notMem (new : name ∉ ds.map Prod.fst)
    (arg : Option String) : ds.put name arg = ds ++ [(name, arg)] := by
  induction ds with
  | nil => rfl
  | cons d ds ih =>
    simp only [List.map_cons, List.mem_cons, not_or] at new
    rw [put, if_neg (Ne.symm new.1), ih new.2, List.cons_append]

theorem foldl_put {seen ds : Directives} (distinct : ((seen ++ ds).map Prod.fst).Nodup) :
    ds.foldl (fun ds d => ds.put d.1 d.2) seen = seen ++ ds := by
  induction ds generalizing seen with
  | nil => simp
  | cons d ds ih =>
    have new : d.1 ∉ seen.map Prod.fst := by
      intro old
      simp only [List.map_append, List.map_cons, List.nodup_append] at distinct
      exact distinct.2.2 d.1 old d.1 (by simp) rfl
    rw [List.foldl_cons, put_of_notMem new, ih (by simpa using distinct)]
    simp

/-- Directives without those of a name. -/
def without (ds : Directives) (name : String) : Directives :=
  ds.filter (·.1 != name)

theorem without_cons (d : String × Option String) (ds : Directives) :
    without (d :: ds) name = if d.1 = name then ds.without name else d :: ds.without name := by
  by_cases same : d.1 = name
  · simp [without, same]
  · simp [without, same]

theorem lookup_without (ds : Directives) (apart : other ≠ name) :
    (ds.without name).lookup other = ds.lookup other := by
  induction ds with
  | nil => rfl
  | cons d ds ih =>
    obtain ⟨n, arg⟩ := d
    rw [without_cons]
    by_cases same : n = name
    · rw [if_pos same, ih, List.lookup_cons, beq_eq_false_iff_ne.2 (same ▸ apart)]
    · rw [if_neg same, List.lookup_cons, List.lookup_cons, ih]

theorem without_put (ds : Directives) (other : String) (arg : Option String) :
    (ds.put other arg).without name =
      if other = name then ds.without name else (ds.without name).put other arg := by
  induction ds with
  | nil => exact without_cons (other, arg) []
  | cons d ds ih =>
    obtain ⟨n, a⟩ := d
    by_cases here : n = other
    · subst here
      rw [put, if_pos rfl, without_cons, without_cons]
      by_cases same : n = name
      · simp [same]
      · simp [same, put]
    · rw [put, if_neg here, without_cons, without_cons, ih]
      by_cases same : n = name
      · simp [same]
      · by_cases same' : other = name
        · simp [same, same']
        · simp [same, same', put, here]

theorem mem_put {d : String × Option String} {arg : Option String}
    (member : d ∈ ds.put other arg) : d ∈ ds ∨ d = (other, arg) := by
  induction ds with
  | nil => exact .inr (List.mem_singleton.1 member)
  | cons first ds ih =>
    obtain ⟨n, a⟩ := first
    rw [put] at member
    split at member
    · rename_i same
      subst same
      rcases List.mem_cons.1 member with here | later
      · exact .inr here
      · exact .inl (List.mem_cons_of_mem _ later)
    · rcases List.mem_cons.1 member with here | later
      · exact .inl (here ▸ List.mem_cons_self)
      · exact (ih later).imp_left (List.mem_cons_of_mem _)

theorem has_put (ds : Directives) (other : String) (arg : Option String) :
    (ds.put other arg).has name = (ds.has name || other == name) := by
  induction ds with
  | nil => simp [put, has]
  | cons first ds ih =>
    obtain ⟨n, a⟩ := first
    rw [put]
    split
    · rename_i same
      subst same
      simp only [has, List.any_cons]
      cases n == name <;> simp
    · simp only [has, List.any_cons] at ih ⊢
      rw [ih, Bool.or_assoc]

end Directives

private theorem without_foldl (occurrences : List (String × Option String)) (seen : Directives)
    (name : String) :
    (occurrences.foldl (fun ds d => Directives.put ds d.1 d.2) seen).without name =
      (occurrences.filter (·.1 != name)).foldl (fun ds d => Directives.put ds d.1 d.2)
        (seen.without name) := by
  induction occurrences generalizing seen with
  | nil => rfl
  | cons d rest ih =>
    rw [List.foldl_cons, ih, Directives.without_put]
    by_cases same : d.1 = name
    · rw [if_pos same, List.filter_cons_of_neg (by simpa using same)]
    · rw [if_neg same, List.filter_cons_of_pos (by simpa using same), List.foldl_cons]

/-- Which other directives a text has is decided by these. -/
theorem without_directivesOf (cs : List Char) (name : String) :
    (directivesOf cs).without name =
      ((directiveOccurrences cs).filter (·.1 != name)).foldl
        (fun ds d => Directives.put ds d.1 d.2) [] :=
  without_foldl (directiveOccurrences cs) [] name

private theorem mem_foldl {occurrences : List (String × Option String)} {seen : Directives}
    {d : String × Option String}
    (member : d ∈ occurrences.foldl (fun ds d => Directives.put ds d.1 d.2) seen) :
    d ∈ seen ∨ d ∈ occurrences := by
  induction occurrences generalizing seen with
  | nil => exact .inl member
  | cons first rest ih =>
    rcases ih member with early | later
    · rcases Directives.mem_put early with old | here
      · exact .inl old
      · exact .inr (here ▸ List.mem_cons_self)
    · exact .inr (List.mem_cons_of_mem _ later)

theorem mem_of_mem_directivesOf {d : String × Option String} (member : d ∈ directivesOf cs) :
    d ∈ directiveOccurrences cs :=
  (mem_foldl member).resolve_left List.not_mem_nil

private theorem has_foldl (occurrences : List (String × Option String)) (seen : Directives)
    (name : String) :
    (occurrences.foldl (fun ds d => Directives.put ds d.1 d.2) seen).has name =
      (seen.has name || occurrences.any (·.1 == name)) := by
  induction occurrences generalizing seen with
  | nil => simp
  | cons d rest ih => rw [List.foldl_cons, ih, Directives.has_put, List.any_cons, Bool.or_assoc]

theorem has_directivesOf (cs : List Char) (name : String) :
    (directivesOf cs).has name = (directiveOccurrences cs).any (·.1 == name) :=
  has_foldl (directiveOccurrences cs) [] name

end EntityGraph.Schema
