import EntityGraph.Proofs.Braces
import EntityGraph.Proofs.Pieces

/-!
Texts that differ in one line of a block. Reading finds the same pieces in both, but for that line of
that block, as long as the braces on the line are as many of the one kind as of the other.
-/
namespace EntityGraph.Schema

variable {cs front after inner inner' old new : List Char} {line n k : Nat} {fresh : Bool}

/-! ## Lines -/

theorem linesOf_of_notMem (oneLine : '\n' ∉ cs) : linesOf cs = [cs] := by
  induction cs with
  | nil => rfl
  | cons c rest ih =>
    simp only [List.mem_cons, not_or] at oneLine
    rw [linesOf, if_neg (Ne.symm oneLine.1), ih oneLine.2]

theorem linesOf_append_newline (oneLine : '\n' ∉ front) (cs : List Char) :
    linesOf (front ++ '\n' :: cs) = front :: linesOf cs := by
  rw [linesOf_eq_splitOn, List.splitOn_append_cons_self_of_not_mem oneLine, linesOf_eq_splitOn]

/-- A line of a text, of which everything but the line is kept. -/
structure LineWithin (cs : List Char) (k : Nat) (line before behind : List Char) : Prop where
  text_eq : cs = before ++ (line ++ behind)
  count : before.count '\n' = k
  start : LineStart before
  oneLine : '\n' ∉ line
  ends : ∀ c ∈ behind.head?, c = '\n'
  last : behind = [] ↔ k + 1 = (linesOf cs).length
  linesOf_set : ∀ line', '\n' ∉ line' →
    linesOf (before ++ (line' ++ behind)) = (linesOf cs).set k line'

theorem LineWithin.below {first rest line before behind : List Char} (oneLine : '\n' ∉ first)
    (within : LineWithin rest k line before behind) :
    LineWithin (first ++ '\n' :: rest) (k + 1) line (first ++ '\n' :: before) behind := by
  obtain ⟨rfl, count, start, single, ends, last, lines⟩ := within
  refine ⟨by simp, ?_, ?_, single, ends, ?_, ?_⟩
  · rw [List.count_append, List.count_eq_zero.2 oneLine, List.count_cons_self, count, Nat.zero_add]
  · intro c found
    rw [List.getLast?_append_of_ne_nil _ (List.cons_ne_nil _ _), List.getLast?_cons] at found
    cases shape : before.getLast? with
    | none => simpa [shape] using found.symm
    | some d => simpa [shape, start d shape] using found.symm
  · rw [linesOf_append_newline oneLine, List.length_cons, last]
    omega
  · intro line' single'
    rw [List.append_assoc, List.cons_append, linesOf_append_newline oneLine,
      linesOf_append_newline oneLine, lines line' single', List.set_cons_succ]

theorem exists_lineWithin {line : List Char} (found : (linesOf cs)[k]? = some line) :
    ∃ before behind, LineWithin cs k line before behind := by
  induction k generalizing cs with
  | zero =>
    by_cases more : '\n' ∈ cs
    · obtain ⟨first, rest, rfl, oneLine⟩ := List.eq_append_cons_of_mem more
      rw [linesOf_append_newline oneLine] at found
      cases found
      refine ⟨[], '\n' :: rest, rfl, rfl, nofun, oneLine, ?_, ?_, ?_⟩
      · rintro c ⟨⟩
        rfl
      · have filled := List.length_pos_of_ne_nil (linesOf_eq_splitOn rest ▸
          List.splitOn_ne_nil '\n' rest)
        simp only [linesOf_append_newline oneLine, List.length_cons, reduceCtorEq, false_iff]
        omega
      · intro line' single
        rw [List.nil_append, linesOf_append_newline single, linesOf_append_newline oneLine,
          List.set_cons_zero]
    · rw [linesOf_of_notMem more] at found
      cases found
      refine ⟨[], [], by simp, rfl, nofun, more, nofun, ?_, ?_⟩
      · simp [linesOf_of_notMem more]
      · intro line' single
        rw [List.nil_append, List.append_nil, linesOf_of_notMem single, linesOf_of_notMem more,
          List.set_cons_zero]
  | succ k ih =>
    by_cases more : '\n' ∈ cs
    · obtain ⟨first, rest, rfl, oneLine⟩ := List.eq_append_cons_of_mem more
      rw [linesOf_append_newline oneLine, List.getElem?_cons_succ] at found
      obtain ⟨before, behind, within⟩ := ih found
      exact ⟨_, behind, within.below oneLine⟩
    · rw [linesOf_of_notMem more] at found
      cases found

theorem numbered_set (n k : Nat) (lines : List (List Char)) (line : List Char) :
    numbered n (lines.set k line) = (numbered n lines).set k (n + k, String.ofList line) := by
  induction lines generalizing n k with
  | nil => rfl
  | cons first rest ih =>
    cases k with
    | zero => rfl
    | succ k =>
      rw [List.set_cons_succ, numbered, numbered, List.set_cons_succ, ih, Nat.add_right_comm,
        Nat.add_assoc]

/-! ## Bodies -/

/-- Texts that differ in what stands between two braces, and there have balanced parts. -/
def Reworded (cs cs' : List Char) : Prop :=
  ∃ front body body' after, cs = front ++ '\x7b' :: (body ++ '\x7d' :: after) ∧
    cs' = front ++ '\x7b' :: (body' ++ '\x7d' :: after) ∧ Balanced 0 body ∧ Balanced 0 body'

theorem Reworded.symm {cs' : List Char} (reworded : Reworded cs cs') : Reworded cs' cs := by
  obtain ⟨front, body, body', after, text_eq, text_eq', balanced, balanced'⟩ := reworded
  exact ⟨front, body', body, after, text_eq', text_eq, balanced', balanced⟩

theorem Reworded.nested {cs' : List Char} (reworded : Reworded cs cs') (nested : Nested 0 cs) :
    Nested 0 cs' := by
  obtain ⟨front, body, body', after, rfl, rfl, balanced, balanced'⟩ := reworded
  have split : ∀ body, front ++ '\x7b' :: (body ++ '\x7d' :: after) =
      (front ++ ['\x7b']) ++ (body ++ '\x7d' :: after) := by simp
  rw [split] at nested ⊢
  exact nested_insert balanced' (nested_cut balanced.closed nested)

/-- Whether a header opens a body is decided in front of the first brace. -/
theorem Opening.reword {rest : List Char} (opening : Opening (rest ++ '\x7b' :: new) inner) :
    ∃ inner', Opening (rest ++ '\x7b' :: old) inner' := by
  obtain ⟨directives, gap, same, inside, blank⟩ := opening
  have plain : '\x7b' ∉ directives ++ gap := by
    intro member
    rcases List.mem_append.1 member with early | late
    · cases inside _ early
    · cases blank _ late
  rw [← List.append_assoc] at same
  rcases List.append_eq_append_iff.1 same with ⟨more, head, behind⟩ | ⟨more, head, behind⟩
  · cases more with
    | nil =>
      rw [List.append_nil] at head
      exact ⟨old, directives, gap, by rw [← head, List.append_assoc], inside, blank⟩
    | cons c more =>
      obtain ⟨rfl, -⟩ := List.cons.inj behind
      exact absurd (head ▸ by simp) plain
  · cases more with
    | nil =>
      rw [List.append_nil] at head
      exact ⟨old, directives, gap, by rw [head, List.append_assoc], inside, blank⟩
    | cons c more =>
      obtain ⟨rfl, -⟩ := List.cons.inj behind
      exact ⟨more ++ '\x7b' :: old, directives, gap, by simp [head], inside, blank⟩

theorem Reworded.headed {cs' : List Char} {h : Heading} (reworded : Reworded cs cs')
    (headed : Headed h cs) :
    ∃ rest, Headed ⟨h.kind, h.name, rest⟩ cs' ∧
      (h.Headless → Heading.Headless ⟨h.kind, h.name, rest⟩) := by
  obtain ⟨front, body, body', after, rfl, rfl, -⟩ := reworded
  obtain ⟨rest, behind, headed'⟩ := headed.exists_rest (by decide) (by decide)
  refine ⟨_, headed'.append _ (by rintro c ⟨⟩; rfl), fun bare inner opening => ?_⟩
  obtain ⟨inner', opening'⟩ := opening.reword
  exact bare inner' (behind ▸ opening')

/-! ## Blocks -/

/-- Reading finds a block between other pieces, and if the body of the block is another one, with as
    many lines, it finds that instead and everything else as before. -/
def Exchangeable (line : Nat) (fresh : Bool) (cs : List Char) (ps : List Piece) (b : Block)
    (ps' : List Piece) : Prop :=
  ∃ front body after, cs = front ++ '\x7b' :: (body ++ '\x7d' :: after) ∧ Balanced 0 body ∧
    b.lines = numbered (line + front.count '\n') (linesOf body) ∧
    ∀ body', Balanced 0 body' → body'.count '\n' = body.count '\n' →
      piecesFrom line fresh (front ++ '\x7b' :: (body' ++ '\x7d' :: after)) =
        ps ++ .block { b with lines := numbered (line + front.count '\n') (linesOf body') } :: ps'

/-- What is found further up has no part in it, if it is the same for every body. -/
theorem Exchangeable.behind {line' : Nat} {fresh' : Bool} {ps ps' : List Piece} {b : Block}
    (found : Exchangeable line fresh cs ps b ps') (passed : List Char) (qs : List Piece)
    (count : line = line' + passed.count '\n')
    (same : ∀ cs', Reworded cs cs' →
      piecesFrom line' fresh' (passed ++ cs') = qs ++ piecesFrom line fresh cs') :
    Exchangeable line' fresh' (passed ++ cs) (qs ++ ps) b ps' := by
  obtain ⟨front, body, after, rfl, balanced, lines, reads⟩ := found
  have number : line' + (passed ++ front).count '\n' = line + front.count '\n' := by
    rw [List.count_append, count, Nat.add_assoc]
  refine ⟨passed ++ front, body, after, (List.append_assoc ..).symm, balanced, by rw [number, lines],
    fun body' balanced' level => ?_⟩
  rw [number, List.append_assoc, same _ ⟨front, body, body', after, rfl, rfl, balanced, balanced'⟩,
    reads body' balanced' level, List.append_assoc]

theorem Exchangeable.of_preface {kind : BlockKind} {name directives head body : List Char}
    (preface : Preface kind name directives head) (balanced : Balanced 0 body) :
    Exchangeable line true (head ++ '\x7b' :: (body ++ '\x7d' :: after)) []
      ⟨kind, String.ofList name, directivesOf directives,
        numbered (line + head.count '\n') (linesOf body)⟩
      (piecesFrom (line + head.count '\n' + body.count '\n') false after) := by
  refine ⟨head, body, after, rfl, balanced, rfl, fun body' balanced' level => ?_⟩
  rw [piecesFrom_block line preface balanced', level, List.nil_append]

theorem exchangeable_of_found {ps ps' : List Piece} {b : Block}
    (found : piecesFrom line fresh cs = ps ++ .block b :: ps') :
    Exchangeable line fresh cs ps b ps' := by
  -- The block stands behind what one step of reading passes, unless the step reads the block.
  fun_induction piecesFrom line fresh cs generalizing ps with
  | case1 line cs none ih =>
    apply (ih found).behind [] []
    · rfl
    · intro cs' reworded
      apply piecesFrom_plain
      intro h headed
      obtain ⟨rest, headed', -⟩ := reworded.symm.headed headed
      exact heading?_eq_none.1 none _ headed'
  | case2 line cs h heading name headless =>
    rename_i ih
    cases ps with
    | nil => cases found
    | cons p ps =>
      obtain ⟨rfl, later⟩ := List.cons.inj found
      apply (ih later).behind [] [_]
      · rfl
      · intro cs' reworded
        have bare : h.Headless := by
          intro inner opening
          obtain ⟨directives, opens⟩ := opening_iff.1 opening
          cases headless.symm.trans opens
        obtain ⟨rest, headed, bare'⟩ := reworded.headed (heading?_eq_some.1 heading)
        rw [List.nil_append, piecesFrom_headless line headed (bare' bare)]
        rfl
  | case3 line cs h heading name directives inner opens bodyLine unclosed =>
    rename_i ih
    cases ps with
    | nil => cases found
    | cons p ps =>
      obtain ⟨rfl, later⟩ := List.cons.inj found
      obtain ⟨head, rfl, preface, counted⟩ := preface_of_opening? (heading?_eq_some.1 heading) opens
      have split : ∀ cs, head ++ '\x7b' :: cs = (head ++ ['\x7b']) ++ cs := by simp
      rw [split]
      apply (ih later).behind _ [_]
      · simp [bodyLine, counted]
      · -- The body of this header does not end in the other text either.
        intro cs' reworded
        have nested := reworded.nested (closing?_eq_none.1 unclosed)
        rw [← split, piecesFrom_unclosed line preface nested, counted]
        rfl
  | case4 line cs h heading name directives inner opens bodyLine body after closes =>
    rename_i ih
    obtain ⟨head, rfl, preface, counted⟩ := preface_of_opening? (heading?_eq_some.1 heading) opens
    obtain ⟨rfl, balanced⟩ := closing?_eq_some.1 closes
    have number : bodyLine = line + head.count '\n' := by rw [counted]
    cases ps with
    | nil =>
      obtain ⟨this, rfl⟩ := List.cons.inj found
      cases this
      rw [number]
      exact .of_preface preface balanced
    | cons p ps =>
      obtain ⟨rfl, later⟩ := List.cons.inj found
      have split : ∀ cs, head ++ '\x7b' :: (body ++ '\x7d' :: cs) =
          (head ++ '\x7b' :: (body ++ ['\x7d'])) ++ cs := by simp
      rw [split]
      apply (ih later).behind _ [_]
      · simp [number, Nat.add_assoc]
      · intro cs' _
        rw [← split, piecesFrom_block line preface balanced, number]
        rfl
  | case5 line => simp at found
  | case6 line rest ih =>
    apply (ih found).behind ['\n'] []
    · rfl
    · exact fun cs' _ => piecesFrom_newline line cs'
  | case7 line c rest notEnd ih =>
    apply (ih found).behind [c] []
    · rw [List.count_cons_of_ne notEnd]
      rfl
    · intro cs' _
      exact piecesFrom_inside line cs' (by simpa using Ne.symm notEnd)

/-! ## Lines of blocks -/

/-- Line `k` of a block with the text around it: the line begins behind the brace that opens the
    body, or at the beginning of a line of the text, and ends in the same way. -/
structure LineAt (s : String) (b : Block) (k : Nat) (line before behind : List Char) : Prop where
  text_eq : s.toList = before ++ (line ++ behind)
  oneLine : '\n' ∉ line
  numbered : b.lines[k]? = some (before.count '\n' + 1, String.ofList line)
  start : before.getLast? = some (if k = 0 then '\x7b' else '\n')
  stop : behind.head? = some (if k + 1 = b.lines.length then '\x7d' else '\n')

/-- Two texts with the same pieces but for one block. -/
def Exchanged (s t : String) (b b' : Block) : Prop :=
  ∃ ps ps', pieces s = ps ++ .block b :: ps' ∧ pieces t = ps ++ .block b' :: ps'

private theorem lineAt_of_within {s : String} {b : Block} {head body line before behind : List Char}
    (text_eq : s.toList = head ++ '\x7b' :: (body ++ '\x7d' :: after))
    (lines : b.lines = numbered (1 + head.count '\n') (linesOf body))
    (within : LineWithin body k line before behind) (found : (linesOf body)[k]? = some line) :
    LineAt s b k line (head ++ '\x7b' :: before) (behind ++ '\x7d' :: after) where
  text_eq := by
    rw [text_eq, within.text_eq]
    simp
  oneLine := within.oneLine
  numbered := by
    have count : (head ++ '\x7b' :: before).count '\n' + 1 = 1 + head.count '\n' + k := by
      rw [List.count_append, List.count_cons_of_ne (by decide), within.count]
      omega
    rw [lines, getElem?_numbered, found, count]
    rfl
  start := by
    rw [List.getLast?_append_of_ne_nil _ (List.cons_ne_nil _ _), List.getLast?_cons]
    have count := within.count
    cases last : before.getLast? with
    | none =>
      obtain rfl := List.getLast?_eq_none_iff.1 last
      have first : k = 0 := count.symm
      rw [if_pos first]
      rfl
    | some c =>
      obtain rfl := within.start c last
      have first : k ≠ 0 := by
        have filled := List.count_pos_iff.2 (List.mem_of_getLast? last)
        omega
      rw [if_neg first]
      rfl
  stop := by
    rw [lines, length_numbered]
    have last := within.last
    cases shape : behind with
    | nil =>
      rw [if_pos (last.1 shape)]
      rfl
    | cons c rest =>
      rw [if_neg (mt last.2 (by simp [shape])), within.ends c (by rw [shape]; rfl)]
      rfl

/-- Every line of a block stands in the text, and a part of it that opens as many braces as it
    closes can be cut out of the text without any other change to what is found. -/
theorem exists_cut {s : String} {b : Block} {text : String} (member : b ∈ blocks s)
    (found : b.lines[k]? = some (n, text)) :
    ∃ before behind, LineAt s b k text.toList before behind ∧
      ∀ front mid back, text.toList = front ++ (mid ++ back) →
        mid.count '\x7b' = mid.count '\x7d' →
        Exchanged s (String.ofList (before ++ (front ++ back ++ behind))) b
          { b with lines := b.lines.set k (n, String.ofList (front ++ back)) } := by
  obtain ⟨p, inside, same⟩ := List.mem_filterMap.1 member
  obtain ⟨ps, ps', split⟩ := List.append_of_mem inside
  cases p with
  | block b' =>
    cases same
    obtain ⟨head, body, after, text_eq, balanced, lines, reworded⟩ := exchangeable_of_found split
    rw [lines, getElem?_numbered, Option.map_eq_some_iff] at found
    obtain ⟨line, found, same⟩ := found
    cases same
    obtain ⟨before, behind, within⟩ := exists_lineWithin found
    rw [String.toList_ofList]
    refine ⟨_, _, lineAt_of_within text_eq lines within found, ?_⟩
    rintro front mid back rfl level
    have single : '\n' ∉ front ++ back := by
      have oneLine := within.oneLine
      simp only [List.mem_append, not_or] at oneLine ⊢
      exact ⟨oneLine.1, oneLine.2.2⟩
    have balanced' : Balanced 0 (before ++ (front ++ back ++ behind)) := by
      have whole : body = (before ++ front) ++ (mid ++ (back ++ behind)) := by
        rw [within.text_eq]
        simp
      have rest := balanced_cut level (whole ▸ balanced)
      simpa using rest
    have count : (before ++ (front ++ back ++ behind)).count '\n' = body.count '\n' := by
      have oneLine := within.oneLine
      rw [within.text_eq]
      simp only [List.count_append, List.mem_append, not_or] at oneLine ⊢
      rw [List.count_eq_zero.2 oneLine.2.1]
      omega
    refine ⟨ps, ps', split, ?_⟩
    have found' := reworded _ balanced' count
    rw [within.linesOf_set _ single, numbered_set, ← lines] at found'
    rw [← found', pieces, String.toList_ofList]
    simp
  | unclosed => cases same
  | headless => cases same

/-! ## Content lines of blocks -/

theorem exists_contentLines_set {b : Block} {line : Nat × String} (found : b.lines[k]? = some line) :
    ∃ front back, b.contentLines = front ++ (said line ++ back) ∧
      ∀ line', { b with lines := b.lines.set k line' }.contentLines =
        front ++ (said line' ++ back) := by
  obtain ⟨below, rfl⟩ := List.getElem?_eq_some_iff.1 found
  refine ⟨(b.lines.take k).flatMap said, (b.lines.drop (k + 1)).flatMap said, ?_, ?_⟩
  · rw [contentLines_eq, ← List.flatMap_cons, ← List.flatMap_append,
      ← List.drop_eq_getElem_cons, List.take_append_drop]
  · intro line'
    rw [contentLines_eq, List.set_eq_take_append_cons_drop, if_pos below,
      List.flatMap_append, List.flatMap_cons]

end EntityGraph.Schema
