import EntityGraph.Proofs.Marks
import EntityGraph.Proofs.Recovery

/-!
Texts that are written block by block, and what is read back from them. Reading gives the blocks as
they were written, whatever stands in their bodies, as long as no body closes more braces than it
opens.
-/
namespace EntityGraph.Schema

/-! ## Directives -/

/-- A directive that can be written on a line. -/
structure Writable (d : String × Option String) : Prop where
  word : IsWord d.1
  closed : ∀ arg, d.2 = some arg → ∀ c ∈ arg.toList, inHeader c = true ∧ c ≠ ')'

/-- A directive that can be told from what is written behind it. -/
structure Legible (d : String × Option String) : Prop where
  word : IsWord d.1
  closed : ∀ arg, d.2 = some arg → ')' ∉ arg.toList

theorem Writable.legible {d : String × Option String} (writable : Writable d) : Legible d :=
  ⟨writable.word, fun arg given inside => (writable.closed arg given ')' inside).2 rfl⟩

/-- A directive as it is written. -/
def markOf : String × Option String → String
  | (name, none) => " @" ++ name
  | (name, some arg) => " @" ++ name ++ "(" ++ arg ++ ")"

/-- Directives one behind the other. -/
def marksOf (ds : Directives) : String :=
  String.join (ds.map markOf)

theorem toList_marksOf_cons (d : String × Option String) (ds : Directives) :
    (marksOf (d :: ds)).toList = (markOf d).toList ++ (marksOf ds).toList := by
  simp [marksOf, String.toList_join]

theorem head_marksOf (ds : Directives) : ∀ c ∈ (marksOf ds).toList.head?, c = ' ' := by
  cases ds with
  | nil => simp [marksOf]
  | cons d ds =>
    obtain ⟨name, _ | arg⟩ := d
    · simp [toList_marksOf_cons, markOf]
    · simp [toList_marksOf_cons, markOf]

theorem inHeader_of_isWordChar {c : Char} (word : Text.isWordChar c = true) :
    inHeader c = true := by
  simp only [inHeader, Bool.and_eq_true, bne_iff_ne]
  refine ⟨⟨?_, ?_⟩, ?_⟩
  all_goals rintro rfl; exact absurd word (by decide)

theorem inHeader_markOf {d : String × Option String} (writable : Writable d) :
    ∀ c ∈ (markOf d).toList, inHeader c = true := by
  obtain ⟨⟨cs, named, -, word⟩, closed⟩ := writable
  have name : ∀ c ∈ d.1.toList, inHeader c = true := by
    rw [named, String.toList_ofList]
    exact fun c member => inHeader_of_isWordChar (word c member)
  obtain ⟨n, _ | arg⟩ := d
  · simpa [markOf, inHeader] using name
  · have inside := fun c member => (closed arg rfl c member).1
    intro c member
    simp only [markOf, String.toList_append, List.mem_append] at member
    rcases member with (((first | first) | first) | first) | first
    · exact List.all_eq_true.1 (by decide) c first
    · exact name c first
    · exact List.all_eq_true.1 (by decide) c first
    · exact inside c first
    · exact List.all_eq_true.1 (by decide) c first

theorem inHeader_marksOf {ds : Directives} (writable : ∀ d ∈ ds, Writable d) :
    ∀ c ∈ (marksOf ds).toList, inHeader c = true := by
  induction ds with
  | nil => simp [marksOf]
  | cons d ds ih =>
    obtain ⟨first, others⟩ := List.forall_mem_cons.1 writable
    rw [toList_marksOf_cons]
    exact List.forall_mem_append.2 ⟨inHeader_markOf first, ih others⟩

theorem solid_markOf {d : String × Option String} (writable : Writable d) :
    ∀ c ∈ (markOf d).toList.getLast?, Text.isBlank c = false := by
  obtain ⟨⟨cs, named, filled, word⟩, -⟩ := writable
  obtain ⟨n, _ | arg⟩ := d
  · subst named
    intro c last
    simp only [markOf, String.toList_append, String.toList_ofList] at last
    rw [List.getLast?_append_of_ne_nil _ filled] at last
    exact Text.notBlank_of_isWordChar (word c (List.mem_of_getLast? last))
  · intro c last
    simp only [markOf, String.toList_append] at last
    rw [List.getLast?_append_of_ne_nil _ (by decide)] at last
    obtain rfl : ')' = c := by simpa using last
    decide

theorem solid_marksOf {ds : Directives} (writable : ∀ d ∈ ds, Writable d) :
    ∀ c ∈ (marksOf ds).toList.getLast?, Text.isBlank c = false := by
  induction ds with
  | nil => simp [marksOf]
  | cons d ds ih =>
    obtain ⟨first, others⟩ := List.forall_mem_cons.1 writable
    rw [toList_marksOf_cons]
    by_cases more : (marksOf ds).toList = []
    · rw [more, List.append_nil]
      exact solid_markOf first
    · rw [List.getLast?_append_of_ne_nil _ more]
      exact ih others

/-- The directives that are written are those that are read. -/
theorem directiveOccurrences_marksOf {ds : Directives} (legible : ∀ d ∈ ds, Legible d) :
    directiveOccurrences (marksOf ds).toList = ds := by
  induction ds with
  | nil => simp [marksOf, directiveOccurrences]
  | cons d ds ih =>
    obtain ⟨first, others⟩ := List.forall_mem_cons.1 legible
    obtain ⟨⟨cs, named, filled, word⟩, closed⟩ := first
    have blank := head_marksOf ds
    obtain ⟨n, _ | arg⟩ := d
    · subst named
      have stops : ∀ c ∈ (marksOf ds).toList.head?, Text.isWordChar c = false := by
        intro c found
        rw [blank c found]
        decide
      have bare : argument? (marksOf ds).toList = none := by
        rw [argument?_eq_none]
        intro inner same
        rw [same] at blank
        exact absurd (blank '(' rfl) (by decide)
      have split : (markOf (String.ofList cs, none)).toList ++ (marksOf ds).toList =
          ' ' :: '@' :: (cs ++ (marksOf ds).toList) := by
        simp [markOf]
      rw [toList_marksOf_cons, split, directiveOccurrences_other (by decide),
        directiveOccurrences_named filled word stops, bare]
      simp only [ih others]
    · subst named
      have split : (markOf (String.ofList cs, some arg)).toList ++ (marksOf ds).toList =
          ' ' :: '@' :: (cs ++ '(' :: (arg.toList ++ ')' :: (marksOf ds).toList)) := by
        simp [markOf]
      rw [toList_marksOf_cons, split, directiveOccurrences_other (by decide),
        directiveOccurrences_named filled word (by rintro c ⟨⟩; decide),
        argument?_eq_some.2 ⟨rfl, closed arg rfl⟩]
      simp only [ih others, String.ofList_toList]

theorem directivesOf_marksOf {ds : Directives} (writable : ∀ d ∈ ds, Writable d)
    (distinct : (ds.map Prod.fst).Nodup) : directivesOf (marksOf ds).toList = ds := by
  rw [directivesOf, directiveOccurrences_marksOf fun d member => (writable d member).legible]
  exact Directives.foldl_put distinct

/-! ## Blocks -/

/-- A block as it can be written: a header, blanks in front of the brace, which may be the end of
    the line, and the lines of the body. -/
structure WrittenBlock where
  kind : BlockKind
  name : String
  directives : Directives
  gap : String
  body : List String
  word : IsWord name
  writable : ∀ d ∈ directives, Writable d
  distinct : (directives.map Prod.fst).Nodup
  blank : ∀ c ∈ gap.toList, Text.isBlank c = true
  oneLine : ∀ line ∈ body, '\n' ∉ line.toList
  balanced : Balanced 0 (body.flatMap String.toList)

namespace WrittenBlock

variable (w : WrittenBlock)

/-- The text of a block up to its brace. -/
def header : String :=
  w.kind.keyword ++ " " ++ w.name ++ marksOf w.directives ++ w.gap

/-- The text of a block up to the first line of its body. -/
def opening : String :=
  w.header ++ "\x7b\n"

/-- The text of a block. -/
def text : String :=
  w.opening ++ lined w.body ++ "\x7d\n"

/-- The block that is written on line `n` and those below it. -/
def block (n : Nat) : Block :=
  ⟨w.kind, w.name, w.directives, numbered (n + w.header.toList.count '\n')
    ([] :: (w.body.map String.toList ++ [[]]))⟩

theorem preface : Preface w.kind w.name.toList (marksOf w.directives).toList w.header.toList := by
  obtain ⟨cs, named, filled, word⟩ := w.word
  have split : w.header.toList = w.kind.keyword.toList ++ ' ' ::
      (w.name.toList ++ ((marksOf w.directives).toList ++ w.gap.toList)) := by
    simp [header]
  rw [split, named, String.toList_ofList]
  apply preface_of_name w.kind filled word
  · exact inHeader_marksOf w.writable
  · exact solid_marksOf w.writable
  · exact w.blank
  · intro c first
    by_cases bare : (marksOf w.directives).toList = []
    · rw [bare, List.nil_append] at first
      exact Text.notWord_of_isBlank (w.blank c (List.mem_of_mem_head? first))
    · rw [List.head?_append_of_ne_nil _ bare] at first
      rw [head_marksOf _ c first]
      decide

theorem inner_balanced : Balanced 0 ('\n' :: (lined w.body).toList) := by
  -- The ends of lines are no braces, so only the concatenation of the lines counts.
  have same : (lined w.body).toList.filter isBrace =
      (w.body.flatMap String.toList).filter isBrace := by
    induction w.body with
    | nil => simp [lined]
    | cons line rest ih =>
      rw [toList_lined_cons, List.filter_append, List.filter_cons_of_neg (by decide), ih]
      simp
  rw [balanced_cons (.stays 0 (by decide) (by decide)), ← balanced_filter, same, balanced_filter]
  exact w.balanced

theorem linesOf_inner : linesOf ('\n' :: (lined w.body).toList) =
    [] :: (w.body.map String.toList ++ [[]]) := by
  rw [linesOf, if_pos rfl]
  congr 1
  have oneLine := w.oneLine
  generalize w.body = body at oneLine ⊢
  induction body with
  | nil => simp [lined, linesOf]
  | cons line rest ih =>
    obtain ⟨first, others⟩ := List.forall_mem_cons.1 oneLine
    rw [toList_lined_cons, linesOf_eq_splitOn, List.splitOn_append_cons_self_of_not_mem first,
      ← linesOf_eq_splitOn, ih others]
    simp

/-- A written block is read as it is, and reading goes on behind it. -/
theorem piecesFrom_text (n : Nat) (cs : List Char) :
    piecesFrom n true (w.text.toList ++ cs) =
      .block (w.block n) :: piecesFrom (n + w.text.toList.count '\n') true cs := by
  have split : w.text.toList ++ cs =
      w.header.toList ++ '\x7b' :: ('\n' :: (lined w.body).toList ++ '\x7d' :: '\n' :: cs) := by
    simp [text, opening]
  have count : w.text.toList.count '\n' = w.header.toList.count '\n' +
      ('\n' :: (lined w.body).toList).count '\n' + 1 := by
    simp [text, opening]
    omega
  rw [split, piecesFrom_block n w.preface w.inner_balanced, piecesFrom_newline, w.linesOf_inner,
    directivesOf_marksOf w.writable w.distinct, String.ofList_toList, block, count]
  congr 2
  omega

end WrittenBlock

/-! ## Content lines -/

/-- The lines of a body that say something, trimmed, with their numbers; the first line of the body
    is line `n`. -/
def contentFrom : (n : Nat) → (body : List String) → List (Nat × String)
  | _, [] => []
  | n, line :: rest =>
    if Idle line then contentFrom (n + 1) rest
    else (n, Text.trim line) :: contentFrom (n + 1) rest

theorem contentLines_numbered (b : Block) (n : Nat) (body : List String) :
    { b with lines := numbered n (body.map String.toList) }.contentLines = contentFrom n body := by
  rw [contentLines_eq]
  dsimp only
  induction body generalizing n with
  | nil => rfl
  | cons line rest ih =>
    rw [List.map_cons, numbered, String.ofList_toList, contentFrom, List.flatMap_cons, ih, said]
    by_cases idle : Idle line
    · simp [idle]
    · simp [idle]

theorem contentFrom_empty (n : Nat) (body : List String) :
    contentFrom n ("" :: (body ++ [""])) = contentFrom (n + 1) body := by
  have blank : Idle "" := by decide
  rw [contentFrom, if_pos blank]
  generalize n + 1 = m
  induction body generalizing m with
  | nil => simp [contentFrom, blank]
  | cons line rest ih => rw [List.cons_append, contentFrom, contentFrom, ih]

theorem WrittenBlock.contentLines_block (w : WrittenBlock) (n : Nat) :
    (w.block n).contentLines = contentFrom (n + w.opening.toList.count '\n') w.body := by
  have lines : [] :: (w.body.map String.toList ++ [[]]) =
      ("" :: (w.body ++ [""])).map String.toList := by
    simp
  have count : w.opening.toList.count '\n' = w.header.toList.count '\n' + 1 := by
    simp [WrittenBlock.opening]
  rw [WrittenBlock.block, lines, contentLines_numbered ⟨w.kind, w.name, w.directives, []⟩,
    contentFrom_empty, count, Nat.add_assoc]

/-! ## Texts -/

/-- The text of blocks one below the other. -/
def written (ws : List WrittenBlock) : String :=
  String.join (ws.map WrittenBlock.text)

/-- Blocks that are written one below the other, the first of them on line `n`. -/
def blocksFrom : (n : Nat) → List WrittenBlock → List Block
  | _, [] => []
  | n, w :: ws => w.block n :: blocksFrom (n + w.text.toList.count '\n') ws

theorem toList_written_cons (w : WrittenBlock) (ws : List WrittenBlock) :
    (written (w :: ws)).toList = w.text.toList ++ (written ws).toList := by
  simp [written, String.toList_join]

theorem length_blocksFrom (n : Nat) (ws : List WrittenBlock) :
    (blocksFrom n ws).length = ws.length := by
  induction ws generalizing n with
  | nil => rfl
  | cons w ws ih => rw [blocksFrom, List.length_cons, ih, List.length_cons]

theorem getElem?_blocksFrom (n : Nat) (front : List WrittenBlock) (w : WrittenBlock)
    (back : List WrittenBlock) :
    (blocksFrom n (front ++ w :: back))[front.length]? =
      some (w.block (n + (written front).toList.count '\n')) := by
  induction front generalizing n with
  | nil => rfl
  | cons first front ih =>
    rw [List.cons_append, blocksFrom, List.length_cons, List.getElem?_cons_succ, ih,
      toList_written_cons, List.count_append, Nat.add_assoc]

theorem piecesFrom_written (n : Nat) (ws : List WrittenBlock) :
    piecesFrom n true (written ws).toList = (blocksFrom n ws).map Piece.block := by
  induction ws generalizing n with
  | nil => cbv
  | cons w ws ih => rw [toList_written_cons, w.piecesFrom_text, ih, blocksFrom, List.map_cons]

/-- A text that is written block by block is read without a warning, and gives the blocks in order,
    with their kinds, names and directives, and with what the lines of their bodies say, each under
    the number of its line. -/
theorem blocks_written (ws : List WrittenBlock) :
    pieceWarnings (pieces (written ws)) = [] ∧ (blocks (written ws)).length = ws.length ∧
      ∀ front w back, ws = front ++ w :: back →
        ∃ b, (blocks (written ws))[front.length]? = some b ∧ b.kind = w.kind ∧ b.name = w.name ∧
          b.directives = w.directives ∧
          b.contentLines =
            contentFrom ((written front ++ w.opening).toList.count '\n' + 1) w.body := by
  have split : pieces (written ws) = (blocksFrom 1 ws).map Piece.block := piecesFrom_written 1 ws
  have found : blocks (written ws) = blocksFrom 1 ws := by
    rw [blocks, split, List.filterMap_map]
    exact List.filterMap_some
  refine ⟨?_, ?_, ?_⟩
  · rw [split]
    simp [pieceWarnings, List.filterMap_map, Function.comp_def, Piece.unclosed?, Piece.headless?]
  · rw [found, length_blocksFrom]
  · rintro front w back rfl
    refine ⟨_, found ▸ getElem?_blocksFrom 1 front w back, rfl, rfl, rfl, ?_⟩
    rw [w.contentLines_block]
    congr 1
    simp only [String.toList_append, List.count_append]
    omega

/-- A block with a brace below its header, and a body in which another header stands. -/
def noticeBlock : WrittenBlock where
  kind := .type
  name := "Notice"
  directives := [("searchable", none), ("table", some "notices")]
  gap := "\n"
  body := ["  type Inner \x7b", "# a comment \x7d", "", "  text: String! "]
  word := ⟨"Notice".toList, by decide, by decide, List.all_eq_true.1 (by decide)⟩
  writable := by
    intro d member
    simp only [List.mem_cons, List.not_mem_nil, or_false] at member
    rcases member with rfl | rfl
    · exact ⟨⟨"searchable".toList, by decide, by decide, List.all_eq_true.1 (by decide)⟩, nofun⟩
    · refine ⟨⟨"table".toList, by decide, by decide, List.all_eq_true.1 (by decide)⟩, ?_⟩
      rintro arg ⟨⟩
      simp [inHeader]
  distinct := by decide
  blank := List.all_eq_true.1 (by decide)
  oneLine := by decide
  balanced := ⟨by decide, closing?_eq_none.1 (by decide)⟩

example : noticeBlock.text = "type Notice @searchable @table(notices)\n\x7b\n  type Inner \x7b\n" ++
    "# a comment \x7d\n\n  text: String! \n\x7d\n" := by
  decide

example : contentFrom 3 noticeBlock.body = [(3, "type Inner \x7b"), (6, "text: String!")] := by
  decide

end EntityGraph.Schema
