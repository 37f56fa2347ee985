import EntityGraph.Proofs.WrittenLines
import Mathlib.Data.List.Nodup

/-!
Arguments in quotation marks. What stands between the marks is a text, whatever it looks like: it is
no number, no `true` and no `null`, and its blanks are kept. But all marks of either kind are taken
off at both ends, not one pair of them, so the apostrophes are lost with which a text begins or ends.
-/
namespace EntityGraph

namespace Text

variable {drop keep : Char → Bool} {c : Char} {cs : List Char}

theorem stripChars_concat (dropped : drop c = true) (cs : List Char) :
    stripChars drop (cs ++ [c]) = stripChars drop cs := by
  by_cases none : ∀ d ∈ cs, drop d = true
  · have all : ∀ d ∈ cs ++ [c], drop d = true :=
      List.forall_mem_append.2 ⟨none, List.forall_mem_singleton.2 dropped⟩
    rw [stripChars, stripChars, List.dropWhile_eq_nil_iff.2 none, List.dropWhile_eq_nil_iff.2 all]
  · have inside : cs.dropWhile drop ≠ [] := fun empty => none (List.dropWhile_eq_nil_iff.1 empty)
    rw [stripChars, stripChars, List.dropWhile_append, if_neg (by simpa using inside),
      List.reverse_append, List.reverse_singleton, List.singleton_append,
      List.dropWhile_cons_of_pos dropped]

theorem dropWhile_congr (same : ∀ c ∈ cs, drop c = keep c) :
    cs.dropWhile drop = cs.dropWhile keep := by
  induction cs with
  | nil => rfl
  | cons c cs ih =>
    obtain ⟨here, later⟩ := List.forall_mem_cons.1 same
    rw [List.dropWhile_cons, List.dropWhile_cons, here, ih later]

theorem stripChars_congr (same : ∀ c ∈ cs, drop c = keep c) :
    stripChars drop cs = stripChars keep cs := by
  rw [stripChars, stripChars, dropWhile_congr same, dropWhile_congr fun c member => ?_]
  exact same c ((List.dropWhile_sublist _).subset (List.mem_reverse.1 member))

theorem stripChars_sublist (drop : Char → Bool) (cs : List Char) :
    (stripChars drop cs).Sublist cs := by
  have back := (List.dropWhile_sublist drop (l := (cs.dropWhile drop).reverse)).reverse
  rw [List.reverse_reverse] at back
  exact back.trans (List.dropWhile_sublist drop)

/-- Nothing is taken off a text exactly if neither end of it can be taken off. -/
theorem stripChars_eq_self_iff : stripChars drop cs = cs ↔
    (∀ c ∈ cs.head?, drop c = false) ∧ ∀ c ∈ cs.getLast?, drop c = false := by
  constructor
  · intro same
    refine ⟨fun c first => ?_, fun c last => ?_⟩
    · by_contra dropped
      obtain ⟨rest, rfl⟩ := List.head?_eq_some_iff.1 first
      rw [stripChars_cons (by simpa using dropped)] at same
      have shorter := (stripChars_sublist drop rest).length_le
      rw [same, List.length_cons] at shorter
      omega
    · by_contra dropped
      obtain ⟨init, rfl⟩ := List.getLast?_eq_some_iff.1 last
      rw [stripChars_concat (by simpa using dropped)] at same
      have shorter := (stripChars_sublist drop init).length_le
      rw [same, List.length_append, List.length_singleton] at shorter
      omega
  · rintro ⟨first, last⟩
    have back : cs.reverse.dropWhile drop = cs.reverse :=
      dropWhile_of_head fun c found => last c (List.head?_reverse ▸ found)
    rw [stripChars, dropWhile_of_head first, back, List.reverse_reverse]

end Text

namespace Schema

/-- A text between quotation marks. -/
def inQuotes (v : String) : String :=
  "\"" ++ v ++ "\""

theorem toList_inQuotes (v : String) : (inQuotes v).toList = '"' :: (v.toList ++ ['"']) := by
  simp [inQuotes]

/-- Quotation marks keep the blanks behind them. -/
theorem trim_inQuotes (v : String) : Text.trim (inQuotes v) = inQuotes v := by
  have ends : Text.trimChars (inQuotes v).toList = (inQuotes v).toList := by
    rw [Text.trimChars, Text.stripChars_eq_self_iff, toList_inQuotes, ← List.cons_append]
    refine ⟨?_, ?_⟩
    · rintro c ⟨⟩
      decide
    · rw [List.getLast?_concat]
      rintro c ⟨⟩
      decide
  rw [Text.trim, ends, String.ofList_toList]

/-- No number begins with a quotation mark. -/
theorem numeral?_inQuotes (v : String) : numeral? (inQuotes v).toList = none := by
  have noDigit : Text.digitValue? '"' = none := by decide
  have noDigits (cs : List Char) : digits? ('"' :: cs) = none := by
    simp [digits?, List.mapM_cons, noDigit]
  have begins : (inQuotes v).toList.takeWhile (· != '.') =
      '"' :: (v.toList ++ ['"']).takeWhile (· != '.') := by
    rw [toList_inQuotes, List.takeWhile_cons_of_pos (by decide)]
  have unsigned : signOf (inQuotes v).toList = (false, (inQuotes v).toList) := by
    rw [toList_inQuotes]
    rfl
  rw [numeral?, unsigned]
  dsimp only
  rw [begins, noDigits]
  split
  · rfl
  · rfl

/-- Between quotation marks stands a text, without the apostrophes around it. -/
theorem literal_inQuotes {v : String} (plain : '"' ∉ v.toList) : literal (inQuotes v) =
    .ok (.text (String.ofList (Text.stripChars (· == '\'') v.toList))) := by
  have named (keyword : String) (other : keyword.toList.head? ≠ some '"') :
      inQuotes v ≠ keyword := by
    rintro rfl
    exact other (by rw [toList_inQuotes, List.head?_cons])
  have inside : Text.stripChars isQuoteMark (inQuotes v).toList =
      Text.stripChars (· == '\'') v.toList := by
    rw [toList_inQuotes, Text.stripChars_cons (by decide), Text.stripChars_concat (by decide)]
    refine Text.stripChars_congr fun c member => ?_
    have other : c ≠ '"' := fun same => plain (same ▸ member)
    rw [isQuoteMark, beq_eq_false_iff_ne.2 other, Bool.false_or]
  have unquoted : unquote (inQuotes v) =
      String.ofList (Text.stripChars (· == '\'') v.toList) := by
    have trimmed := congrArg String.toList (trim_inQuotes v)
    rw [Text.trim, String.toList_ofList] at trimmed
    rw [unquote, unquoteChars, trimmed, inside]
  rw [literal, trim_inQuotes, if_neg (named "true" (by decide)),
    if_neg (named "false" (by decide)), if_neg (named "null" (by decide)), numeral?_inQuotes,
    unquoted]

/-! ## Lines -/

/-- A text that begins or ends with an apostrophe. -/
def Apostrophized (v : String) : Prop :=
  v.toList.head? = some '\'' ∨ v.toList.getLast? = some '\''

theorem stripChars_apostrophe {v : String} :
    String.ofList (Text.stripChars (· == '\'') v.toList) = v ↔ ¬ Apostrophized v := by
  have ends (found : Option Char) : (∀ c ∈ found, (c == '\'') = false) ↔ found ≠ some '\'' := by
    cases found <;> simp
  rw [← String.toList_inj, String.toList_ofList, Text.stripChars_eq_self_iff, ends, ends,
    Apostrophized, not_or]

/-- The line of a field with a text as its default. -/
def defaultLine (v : String) (plain : ')' ∉ v.toList) (oneLine : '\n' ∉ v.toList) :
    WrittenLine where
  name := "x"
  gap := " "
  rawType := "String"
  directives := [("default", some (inQuotes v))]
  trimmed := by decide +kernel
  named := by decide
  plain := by decide
  blank := blank_single
  typed := List.all_eq_true.1 (by decide)
  legible := by
    rintro d member
    rw [List.mem_singleton.1 member]
    refine ⟨⟨"default".toList, rfl, by decide, List.all_eq_true.1 (by decide)⟩, ?_⟩
    rintro arg ⟨⟩
    simpa [toList_inQuotes] using plain
  distinct := List.nodup_singleton _
  oneLine := by
    rintro d member arg given
    rw [List.mem_singleton.1 member] at given
    cases given
    simpa [toList_inQuotes] using oneLine

theorem hints_defaultLine {v : String} (unquoted : '"' ∉ v.toList) (closed : ')' ∉ v.toList)
    (oneLine : '\n' ∉ v.toList) (number : Int) (block : String) :
    ∃ d, Declaration.ofLine ("x: String @default(\"" ++ v ++ "\")") number block = .ok d ∧
      d.hints = .ok [("default",
        .text (String.ofList (Text.stripChars (· == '\'') v.toList)))] := by
  have text : "x: String @default(\"" ++ v ++ "\")" = (defaultLine v closed oneLine).text := by
    rw [← String.toList_inj]
    simp [WrittenLine.text, WrittenLine.parts, defaultLine, mark, inQuotes]
  refine ⟨_, text ▸ (defaultLine v closed oneLine).ofLine_text number block, ?_⟩
  simp only [WrittenLine.declaration, defaultLine, Declaration.hints, List.mapM_cons,
    List.mapM_nil, literal_inQuotes unquoted]
  rfl

/-- A text between quotation marks is read as the text without the apostrophes around it, so as
    the text itself exactly if it neither begins nor ends with one. -/
theorem hints_default_inQuotes {v : String} (unquoted : '"' ∉ v.toList) (closed : ')' ∉ v.toList)
    (oneLine : '\n' ∉ v.toList) (number : Int) (block : String) :
    ∃ d, Declaration.ofLine ("x: String @default(\"" ++ v ++ "\")") number block = .ok d ∧
      d.hints = .ok [("default",
        .text (String.ofList (Text.stripChars (· == '\'') v.toList)))] ∧
      (d.hints = .ok [("default", .text v)] ↔ ¬ Apostrophized v) := by
  obtain ⟨d, read, hints⟩ := hints_defaultLine unquoted closed oneLine number block
  refine ⟨d, read, hints, ?_⟩
  rw [hints, ← stripChars_apostrophe]
  simp

/-- A default with blanks around it that looks like other directives. -/
theorem hints_default_inQuotes_marks :
    '"' ∉ " @min(3 it's 0 ".toList ∧ ')' ∉ " @min(3 it's 0 ".toList ∧
      '\n' ∉ " @min(3 it's 0 ".toList ∧ ¬ Apostrophized " @min(3 it's 0 " ∧
      ∃ d, Declaration.ofLine "x: String @default(\" @min(3 it's 0 \")" 1 "Note" = .ok d ∧
        d.hints = .ok [("default", .text " @min(3 it's 0 ")] := by
  have inside : ¬ Apostrophized " @min(3 it's 0 " := by
    rw [Apostrophized]
    decide
  obtain ⟨d, read, -, same⟩ := hints_default_inQuotes (v := " @min(3 it's 0 ") (by decide)
    (by decide) (by decide) 1 "Note"
  exact ⟨by decide, by decide, by decide, inside, d, read, same.2 inside⟩

/-- The apostrophe at the beginning of a default is lost. -/
theorem hints_default_tis :
    '"' ∉ "'tis".toList ∧ ')' ∉ "'tis".toList ∧ '\n' ∉ "'tis".toList ∧
      ∃ d, Declaration.ofLine "x: String @default(\"'tis\")" 1 "Poem" = .ok d ∧
        d.hints = .ok [("default", .text "tis")] := by
  obtain ⟨d, read, hints⟩ := hints_defaultLine (v := "'tis") (by decide) (by decide) (by decide)
    1 "Poem"
  exact ⟨by decide, by decide, by decide, d, read, hints⟩

end Schema

end EntityGraph
