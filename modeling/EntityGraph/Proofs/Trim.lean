import EntityGraph.Text.Blank
import EntityGraph.Text.Word
import Mathlib.Data.List.DropRight
import Mathlib.Data.List.TakeWhile

/-!
Texts without blanks around them. Trimming leaves such a text, and nothing else changes one;
words are such texts, since no word character is a blank.
-/
namespace EntityGraph.Text

/-- A text that begins and ends with something else than a blank. -/
def Trimmed (s : String) : Prop :=
  trim s = s

instance (s : String) : Decidable (Trimmed s) :=
  inferInstanceAs (Decidable (trim s = s))

theorem dropWhile_of_head {drop : Char → Bool} {cs : List Char}
    (kept : ∀ c ∈ cs.head?, drop c = false) : cs.dropWhile drop = cs := by
  refine List.dropWhile_eq_self_iff.2 fun inside => ?_
  rw [kept cs[0] (List.head?_eq_getElem? ▸ List.getElem?_eq_getElem inside)]
  exact Bool.false_ne_true

theorem takeWhile_of_head {keep : Char → Bool} {cs : List Char}
    (stops : ∀ c ∈ cs.head?, keep c = false) : cs.takeWhile keep = [] := by
  cases cs with
  | nil => rfl
  | cons c rest => rw [List.takeWhile_cons, stops c rfl, if_neg Bool.false_ne_true]

theorem head_dropWhile {drop : Char → Bool} {cs : List Char} {c : Char}
    (first : c ∈ (cs.dropWhile drop).head?) : drop c = false := by
  have found := List.head?_dropWhile_not drop cs
  rw [Option.mem_def.1 first] at found
  simpa using found

/-- What is cut off at the end of a text is as long as it can be. -/
theorem exists_stripEnd (drop : Char → Bool) (cs : List Char) :
    ∃ tail, stripEnd drop cs ++ tail = cs ∧ (∀ c ∈ tail, drop c = true) ∧
      ∀ c ∈ (stripEnd drop cs).getLast?, drop c = false := by
  refine ⟨(cs.reverse.takeWhile drop).reverse, ?_, fun c member => ?_, fun c last => ?_⟩
  · rw [stripEnd, ← List.reverse_append, List.takeWhile_append_dropWhile, List.reverse_reverse]
  · exact List.mem_takeWhile_imp (List.mem_reverse.1 member)
  · rw [stripEnd, List.getLast?_reverse] at last
    exact head_dropWhile last

/-- Characters that are cut off at the end leave the beginning as it is, or nothing. -/
private theorem head_stripEnd {drop : Char → Bool} {cs : List Char} {c : Char}
    (first : c ∈ (stripEnd drop cs).head?) : c ∈ cs.head? := by
  obtain ⟨tail, split, -, -⟩ := exists_stripEnd drop cs
  rw [← split, List.head?_append, Option.mem_def.1 first]
  rfl

theorem stripChars_idem (drop : Char → Bool) (cs : List Char) :
    stripChars drop (stripChars drop cs) = stripChars drop cs := by
  have front : (stripChars drop cs).dropWhile drop = stripChars drop cs :=
    dropWhile_of_head fun _ first => head_dropWhile (head_stripEnd first)
  rw [stripChars, front, stripChars, List.reverse_reverse, List.dropWhile_idempotent]

theorem stripChars_cons {drop : Char → Bool} {c : Char} (dropped : drop c = true)
    (cs : List Char) : stripChars drop (c :: cs) = stripChars drop cs := by
  rw [stripChars, List.dropWhile_cons_of_pos dropped, stripChars]

theorem stripChars_dropWhile (drop : Char → Bool) (cs : List Char) :
    stripChars drop (cs.dropWhile drop) = stripChars drop cs := by
  rw [stripChars, stripChars, List.dropWhile_idempotent]

theorem dropWhile_append_cons {p : Char → Bool} {c : Char} (stops : p c = false)
    (front back : List Char) :
    (front ++ c :: back).dropWhile p = front.dropWhile p ++ c :: back := by
  induction front with
  | nil => rw [List.nil_append, List.dropWhile_cons_of_neg (by simp [stops])]; rfl
  | cons d front ih =>
    rw [List.cons_append, List.dropWhile_cons, List.dropWhile_cons, ih]
    split
    · rfl
    · rfl

theorem stripEnd_append_cons {p : Char → Bool} {c : Char} (stops : p c = false)
    (front back : List Char) :
    stripEnd p (front ++ c :: back) = front ++ c :: stripEnd p back := by
  have reversed : (front ++ c :: back).reverse = back.reverse ++ c :: front.reverse := by simp
  rw [stripEnd, reversed, dropWhile_append_cons stops, stripEnd]
  simp

/-- What is taken off at the ends of a text. -/
theorem exists_stripChars (drop : Char → Bool) (cs : List Char) :
    ∃ front back, cs = front ++ stripChars drop cs ++ back ∧ (∀ c ∈ front, drop c = true) ∧
      ∀ c ∈ back, drop c = true := by
  obtain ⟨back, split, dropped, -⟩ := exists_stripEnd drop (cs.dropWhile drop)
  refine ⟨cs.takeWhile drop, back, ?_, fun c => List.mem_takeWhile_imp, dropped⟩
  rw [List.append_assoc, show stripChars drop cs ++ back = cs.dropWhile drop from split,
    List.takeWhile_append_dropWhile]

/-- Nothing is taken off from a part of a text that is to stay. -/
theorem stripChars_append_solid {drop : Char → Bool} {token : List Char} (filled : token ≠ [])
    (solid : ∀ c ∈ token, drop c = false) (front back : List Char) :
    stripChars drop (front ++ token ++ back) =
      front.dropWhile drop ++ token ++ stripEnd drop back := by
  obtain ⟨c, rest, rfl⟩ := List.exists_cons_of_ne_nil filled
  have kept : stripEnd drop ((front.dropWhile drop ++ c :: rest) ++ back) =
      (front.dropWhile drop ++ c :: rest) ++ stripEnd drop back := by
    obtain ⟨init, d, last⟩ := (List.eq_nil_or_concat (c :: rest)).resolve_left filled
    rw [List.concat_eq_append] at last
    have stays := solid d (by simp [last])
    rw [last, ← List.append_assoc, List.append_assoc _ [d], List.singleton_append,
      stripEnd_append_cons stays]
    simp
  show stripEnd drop ((front ++ c :: rest ++ back).dropWhile drop) = _
  rw [List.append_assoc, List.cons_append, dropWhile_append_cons (solid c List.mem_cons_self),
    ← List.cons_append, ← List.append_assoc, kept]

theorem trimmed_trim (s : String) : Trimmed (trim s) := by
  simp only [Trimmed, trim, trimChars, String.toList_ofList, stripChars_idem]

/-- Without blanks in it, a text has none around it. -/
theorem trimmed_of_notBlank {cs : List Char} (solid : ∀ c ∈ cs, isBlank c = false) :
    Trimmed (String.ofList cs) := by
  have front : cs.dropWhile isBlank = cs :=
    dropWhile_of_head fun c first => solid c (List.mem_of_mem_head? first)
  have back : cs.reverse.dropWhile isBlank = cs.reverse :=
    dropWhile_of_head fun c first =>
      solid c (List.mem_reverse.1 (List.mem_of_mem_head? first))
  simp only [Trimmed, trim, trimChars, stripChars, String.toList_ofList, front, back,
    List.reverse_reverse]

/-- The blanks beyond ASCII. -/
private def wideBlanks : List Nat := [
  0x85, 0xa0, 0x1680, 0x2000, 0x2001, 0x2002, 0x2003, 0x2004, 0x2005, 0x2006, 0x2007, 0x2008,
  0x2009, 0x200a, 0x2028, 0x2029, 0x202f, 0x205f, 0x3000]

private theorem wideBlanks_notWord : ∀ n ∈ wideBlanks, within wordBounds n = false := by
  decide +kernel

private theorem ascii_notBlank {c : Char} (ascii : c.toNat < 0x80)
    (word : (c.isAlphanum || c == '_') = true) : isBlank c = false := by
  have all : ∀ n < 0x80, ((Char.ofNat n).isAlphanum || Char.ofNat n == '_') = true →
      isBlank (Char.ofNat n) = false := by
    decide +kernel
  have here := all c.toNat ascii
  rw [Char.ofNat_toNat] at here
  exact here word

theorem notBlank_of_isWordChar {c : Char} (word : isWordChar c = true) : isBlank c = false := by
  by_cases ascii : c.toNat < 0x80
  · exact ascii_notBlank ascii (by simpa [isWordChar, ascii] using word)
  · cases blank : isBlank c with
    | false => rfl
    | true =>
      have wide : c.toNat ∈ wideBlanks := by
        simp only [isBlank, Bool.or_eq_true, Bool.and_eq_true, decide_eq_true_eq,
          beq_iff_eq] at blank
        simp only [wideBlanks, List.mem_cons, List.not_mem_nil, or_false]
        omega
      rw [isWordChar, if_neg ascii, wideBlanks_notWord _ wide] at word
      exact absurd word Bool.false_ne_true

theorem notWord_of_isBlank {c : Char} (blank : isBlank c = true) : isWordChar c = false := by
  cases word : isWordChar c with
  | false => rfl
  | true =>
    rw [notBlank_of_isWordChar word] at blank
    cases blank

end EntityGraph.Text
