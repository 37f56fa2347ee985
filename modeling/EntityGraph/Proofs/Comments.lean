import EntityGraph.Proofs.Likeness

/-!
Comments in the bodies of blocks. Braces are counted in comments as well, so a comment matters to
where its block ends; it matters to nothing else, and one that opens as many braces as it closes can
be left out.
-/
namespace EntityGraph.Schema

variable {dialect : Dialect} {s : String} {b : Block} {k n : Nat} {line : String}

/-- A comment that opens as many braces as it closes can be replaced by an empty line. -/
theorem read_without_comment (member : b ∈ blocks s) (found : b.lines[k]? = some (n, line))
    (comment : (Text.trim line).toList.head? = some '#')
    (level : line.toList.count '\x7b' = line.toList.count '\x7d') :
    ∃ before behind, LineAt s b k line.toList before behind ∧
      read dialect (String.ofList (before ++ behind)) = read dialect s := by
  obtain ⟨before, behind, stands, cut⟩ := exists_cut member found
  have exchanged := cut [] line.toList [] (by simp) level
  obtain ⟨front, back, lines, lines'⟩ := exists_contentLines_set found
  have idle : said (n, line) = [] := if_pos (.inr comment)
  have blank : said (n, "") = [] := if_pos (show Idle "" by decide)
  refine ⟨before, behind, stands, exchanged.read (.of_content rfl rfl rfl ?_)⟩
  show b.contentLines = { b with lines := b.lines.set k (n, "") }.contentLines
  rw [lines, lines', idle, blank]

/-- A text with a comment that closes the brace it opens. -/
def remark : String :=
  "type Remark \x7b\n  # see \x7bbelow\x7d\n  text: String\n\x7d\n"

/-- The block of the text. -/
def remarkBlock : Block :=
  ⟨.type, "Remark", [], [(1, ""), (2, "  # see \x7bbelow\x7d"), (3, "  text: String"), (4, "")]⟩

theorem read_without_comment_remark : remarkBlock ∈ blocks remark ∧
    remarkBlock.lines[1]? = some (2, "  # see \x7bbelow\x7d") ∧
    ∃ before behind, LineAt remark remarkBlock 1 "  # see \x7bbelow\x7d".toList before behind ∧
      read {} (String.ofList (before ++ behind)) = read {} remark := by
  have split : blocks remark = [remarkBlock] := by decide +kernel
  have member : remarkBlock ∈ blocks remark := split ▸ List.mem_singleton_self _
  exact ⟨member, rfl, read_without_comment (k := 1) member rfl (by decide) (by decide)⟩

/-- A text with a comment that opens a brace, so that its block ends one line further down. -/
def openRemark : String :=
  "type Remark \x7b\n" ++ ("  # \x7b" ++ "\n  text: String\n  \x7d\n\x7d\n")

/-- The text cannot be read, and could be without the comment. -/
theorem read_openRemark :
    (∃ b ∈ blocks openRemark, LineAt openRemark b 1 "  # \x7b".toList "type Remark \x7b\n".toList
      "\n  text: String\n  \x7d\n\x7d\n".toList) ∧
    read {} ("type Remark \x7b\n" ++ "\n  text: String\n  \x7d\n\x7d\n") ≠
      read {} openRemark := by
  have split : pieces openRemark = [.block ⟨.type, "Remark", [],
      [(1, ""), (2, "  # \x7b"), (3, "  text: String"), (4, "  \x7d"), (5, "")]⟩] := by decide +kernel
  have split' : pieces ("type Remark \x7b\n" ++ "\n  text: String\n  \x7d\n\x7d\n") =
      [.block ⟨.type, "Remark", [], [(1, ""), (2, ""), (3, "  text: String"), (4, "  ")]⟩] := by decide +kernel
  constructor
  · refine ⟨_, by rw [blocks, split]; exact List.mem_singleton_self _, ?_⟩
    exact ⟨by decide, by decide, by decide, by decide, by decide⟩
  · intro same
    rw [read, read, split, split'] at same
    have success := congrArg Except.isOk same
    exact absurd success (by decide +kernel)

end EntityGraph.Schema
