import EntityGraph.Schema.Block
import Mathlib.Data.List.Basic

/-!
The lines of a text and those of its parts. The lines of a part are lines of the whole text but for
the first and the last one, which may lack something; and as many lines are in front of a part as
there are line ends.
-/
namespace EntityGraph.Schema

variable {before body : List Char}

/-! ## Lines of a part -/

theorem linesOf_eq_splitOn (cs : List Char) : linesOf cs = cs.splitOn '\n' := by
  induction cs with
  | nil => rfl
  | cons c rest ih =>
    rw [linesOf, List.splitOn_cons_eq_if_modifyHead, ih]
    by_cases ends : c = '\n'
    · simp only [ends, beq_self_eq_true, if_true]
    · rw [if_neg ends, if_neg (by simpa using ends)]
      rcases List.exists_cons_of_ne_nil (List.splitOn_ne_nil '\n' rest) with ⟨line, lines, split⟩
      rw [split]
      rfl

theorem lines_behind (before cs : List Char) :
    ∃ front, ((before ++ cs).splitOn '\n').drop (before.count '\n') =
      (cs.splitOn '\n').modifyHead (front ++ ·) := by
  induction before with
  | nil => exact ⟨[], (congrFun List.modifyHead_id _).symm⟩
  | cons c rest ih =>
    obtain ⟨front, behind⟩ := ih
    rw [List.cons_append, List.splitOn_cons_eq_if_modifyHead]
    by_cases ends : c = '\n'
    · subst ends
      rw [List.count_cons_self, if_pos (beq_self_eq_true _), List.drop_succ_cons]
      exact ⟨front, behind⟩
    · rw [List.count_cons_of_ne ends, if_neg (by simpa using ends)]
      by_cases first : rest.count '\n' = 0
      · rw [first, List.drop_zero] at behind ⊢
        exact ⟨c :: front, by rw [behind, List.modifyHead_modifyHead]; rfl⟩
      · exact ⟨front, (List.drop_modifyHead_of_pos (Nat.pos_of_ne_zero first)).trans behind⟩

theorem lines_inside (after : List Char) {k : Nat} {line : List Char}
    (found : (body.splitOn '\n')[k]? = some line) :
    ∃ back, ((body ++ after).splitOn '\n')[k]? = some (line ++ back) ∧
      (k + 1 < (body.splitOn '\n').length → back = []) := by
  induction body generalizing k line with
  | nil =>
    cases k with
    | zero =>
      cases found
      obtain ⟨first, others, split⟩ := List.exists_cons_of_ne_nil (List.splitOn_ne_nil '\n' after)
      exact ⟨first, by rw [List.nil_append, split]; rfl, fun more => absurd more (Nat.lt_irrefl 1)⟩
    | succ k => cases found
  | cons c rest ih =>
    rw [List.cons_append, List.splitOn_cons_eq_if_modifyHead, List.splitOn_cons_eq_if_modifyHead]
    rw [List.splitOn_cons_eq_if_modifyHead] at found
    by_cases ends : (c == '\n') = true
    · rw [if_pos ends] at found
      rw [if_pos ends, if_pos ends]
      cases k with
      | zero =>
        cases found
        exact ⟨[], rfl, fun _ => rfl⟩
      | succ k =>
        obtain ⟨back, whole, last⟩ := ih found
        exact ⟨back, whole, fun more => last (Nat.lt_of_succ_lt_succ more)⟩
    · rw [if_neg ends] at found
      rw [if_neg ends, if_neg ends, List.length_modifyHead]
      cases k with
      | zero =>
        rw [List.getElem?_modifyHead_zero] at found ⊢
        obtain ⟨line, inner, rfl⟩ := Option.map_eq_some_iff.1 found
        obtain ⟨back, whole, last⟩ := ih inner
        exact ⟨back, by rw [whole]; rfl, last⟩
      | succ k =>
        rw [List.getElem?_modifyHead_succ] at found ⊢
        exact ih found

/-- A line of a part is found on the line of the text that has its number, and is that line but for
    the first and the last one. -/
theorem line_of_part (before after : List Char) {k : Nat} {line : List Char}
    (found : (body.splitOn '\n')[k]? = some line) :
    ∃ front back, ((before ++ (body ++ after)).splitOn '\n')[before.count '\n' + k]? =
        some (front ++ line ++ back) ∧
      (0 < k → front = []) ∧ (k + 1 < (body.splitOn '\n').length → back = []) := by
  obtain ⟨back, whole, last⟩ := lines_inside after found
  obtain ⟨front, behind⟩ := lines_behind before (body ++ after)
  rw [← List.getElem?_drop, behind]
  cases k with
  | zero =>
    refine ⟨front, back, ?_, fun more => absurd more (Nat.lt_irrefl 0), last⟩
    rw [List.getElem?_modifyHead_zero, whole, Option.map_some, List.append_assoc]
  | succ k =>
    refine ⟨[], back, ?_, fun _ => rfl, last⟩
    rw [List.getElem?_modifyHead_succ, whole, List.nil_append]

/-! ## Numbers -/

theorem map_numbered (n : Nat) (lines : List (List Char)) :
    (numbered n lines).map (fun line => line.2.toList) = lines := by
  induction lines generalizing n with
  | nil => rfl
  | cons line rest ih => rw [numbered, List.map_cons, ih, String.toList_ofList]

theorem length_numbered (n : Nat) (lines : List (List Char)) :
    (numbered n lines).length = lines.length := by
  rw [← List.length_map, map_numbered]

theorem getElem?_numbered (n : Nat) (lines : List (List Char)) (k : Nat) :
    (numbered n lines)[k]? = lines[k]?.map fun line => (n + k, String.ofList line) := by
  induction lines generalizing n k with
  | nil => rfl
  | cons line rest ih =>
    cases k with
    | zero => rfl
    | succ k =>
      rw [numbered, List.getElem?_cons_succ, List.getElem?_cons_succ, ih, Nat.add_right_comm,
        Nat.add_assoc]

/-! ## Content lines -/

/-- A line that says nothing: a blank one or a comment. -/
def Idle (line : String) : Prop :=
  Text.trim line = "" ∨ (Text.trim line).toList.head? = some '#'

instance (line : String) : Decidable (Idle line) :=
  inferInstanceAs (Decidable (_ ∨ _))

/-- What a line contributes to the content lines of its block. -/
def said (line : Nat × String) : List (Nat × String) :=
  if Idle line.2 then [] else [(line.1, Text.trim line.2)]

theorem contentLines_eq (b : Block) : b.contentLines = b.lines.flatMap said := by
  rw [Block.contentLines]
  induction b.lines with
  | nil => rfl
  | cons line rest ih =>
    obtain ⟨n, text⟩ := line
    have empty : Text.trim text = "" ↔ Text.trimChars text.toList = [] := by
      rw [Text.trim, ← String.toList_inj, String.toList_ofList]
      rfl
    have idle : Idle text ↔ ((Text.trimChars text.toList).isEmpty ||
        (Text.trimChars text.toList).head? == some '#') = true := by
      rw [Idle, empty, Text.trim, String.toList_ofList]
      simp
    rw [List.filterMap_cons, List.flatMap_cons, ← ih, said]
    dsimp only
    by_cases silent : Idle text
    · rw [if_pos (idle.1 silent), if_pos silent]
      rfl
    · rw [if_neg (mt idle.2 silent), if_neg silent]
      rfl

/-! ## Beginnings of lines -/

/-- The text in front of a line: nothing, or lines with their ends. -/
def LineStart (before : List Char) : Prop :=
  ∀ c ∈ before.getLast?, c = '\n'

theorem LineStart.newline_mem {mid : List Char} (start : LineStart (before ++ mid))
    (more : mid ≠ []) : '\n' ∈ mid := by
  have last := List.getLast?_eq_some_getLast more
  have ends := start (mid.getLast more) (by rw [List.getLast?_append, last]; rfl)
  exact ends ▸ List.getLast_mem more

/-- As many line ends are in front of two lines only if these are the same. -/
theorem LineStart.eq_of_count {before' cs cs' : List Char} (start : LineStart before)
    (start' : LineStart before') (same : before ++ cs = before' ++ cs')
    (count : before.count '\n' = before'.count '\n') : before = before' := by
  have longer : ∀ {before mid : List Char}, LineStart (before ++ mid) →
      before.count '\n' = (before ++ mid).count '\n' → mid = [] := by
    intro before mid start count
    by_contra more
    have ends := List.count_pos_iff.2 (start.newline_mem more)
    rw [List.count_append] at count
    omega
  rcases List.append_eq_append_iff.1 same with ⟨mid, rfl, -⟩ | ⟨mid, rfl, -⟩
  · rw [longer start' count, List.append_nil]
  · rw [longer start count.symm, List.append_nil]

end EntityGraph.Schema
