import EntityGraph.Proofs.Headings
import EntityGraph.Proofs.Lines

/-!
Where the pieces of a schema text stand in it. `Scan` says what has been found in the text behind
the part that was read: the pieces stand one behind the other, and every line that begins with a
heading opens one of them or is inside of a block. Reading goes on behind a block, behind the
opening brace of a body that never ends, or on the line of a header without a body. No heading is
lost that way, since none begins between a name and its brace.
-/
namespace EntityGraph.Schema

variable {text : List Char}

/-! ## Spans -/

/-- A part of a text. -/
structure Span (text : List Char) where
  before : List Char
  taken : List Char
  after : List Char
  text_eq : text = before ++ (taken ++ after)

/-- Where a part begins. -/
def Span.start (p : Span text) : Nat :=
  p.before.length

/-- Where the text behind a part begins. -/
def Span.stop (p : Span text) : Nat :=
  p.start + p.taken.length

/-- Whether an index is among those of a part. -/
def Span.Contains (p : Span text) (i : Nat) : Prop :=
  p.start ≤ i ∧ i < p.stop

/-- A block is written as its header and, between braces, a body that has its lines. Each of these
    is a line of the text, but for the first and the last one, which may lack something. -/
structure BlockText (text head body : List Char) (b : Block) : Prop where
  header : ∃ directives, Header b.kind b.name.toList directives head ∧
    b.directives = directivesOf directives
  joined : ['\n'].intercalate (b.lines.map fun line => line.2.toList) = body
  balanced : Balanced 0 body
  lines : ∀ k n line, b.lines[k]? = some (n, line) → ∃ whole, 0 < n ∧
    (text.splitOn '\n')[n - 1]? = some whole ∧ line.toList <:+: whole ∧
    (0 < k → k + 1 < b.lines.length → line.toList = whole)

/-- A block stands where its header begins, up to the brace that closes it. -/
def Block.At (b : Block) (p : Span text) : Prop :=
  LineStart p.before ∧ ∃ head body, p.taken = head ++ '\x7b' :: (body ++ ['\x7d']) ∧
    BlockText text head body b

/-- A heading stands at the beginning of a line, up to its name. -/
def Heading.At (h : Heading) (p : Span text) : Prop :=
  LineStart p.before ∧ Headed h (p.taken ++ p.after) ∧ p.after = h.rest

/-- A heading behind which a body begins that never ends. -/
def Heading.Unclosed (h : Heading) : Prop :=
  ∃ inner, Opening h.rest inner ∧ Nested 0 inner

/-- A heading behind which no body begins. -/
def Heading.Headless (h : Heading) : Prop :=
  ∀ inner, ¬ Opening h.rest inner

/-- Where a piece stands: a block with all of its text, anything else with its heading. -/
inductive Piece.At : Piece → Span text → Prop
  | block {b : Block} {p : Span text} (stands : b.At p) : Piece.At (.block b) p
  | unclosed {h : Heading} {p : Span text} (stands : h.At p) (endless : h.Unclosed) :
      Piece.At (.unclosed h.kind (String.ofList h.name) (p.before.count '\n' + 1)) p
  | headless {h : Heading} {p : Span text} (stands : h.At p) (bare : h.Headless) :
      Piece.At (.headless h.kind (String.ofList h.name) (p.before.count '\n' + 1)) p

/-- A piece with its place in a text. -/
structure Place (text : List Char) extends Span text where
  piece : Piece
  stands : piece.At toSpan

/-- Whether a place is that of a block. -/
def Place.isBlock (p : Place text) : Bool :=
  p.piece.block?.isSome

/-- Whether the line that begins at an index opens the piece of a place, or is inside of its
    block. -/
def Place.Covers (p : Place text) (i : Nat) : Prop :=
  p.start = i ∨ p.isBlock = true ∧ p.start < i ∧ i < p.stop

theorem Place.lineStart (p : Place text) : LineStart p.before := by
  obtain ⟨span, piece, stands⟩ := p
  cases stands with
  | block stands => exact stands.1
  | unclosed stands => exact stands.1
  | headless stands => exact stands.1

theorem Heading.At.taken_ne_nil {h : Heading} {p : Span text} (stands : h.At p) :
    p.taken ≠ [] := by
  intro empty
  obtain ⟨-, headed, behind⟩ := stands
  obtain ⟨front, same, nonempty, -⟩ := headed.front
  rw [empty, List.nil_append, behind, List.self_eq_append_left] at same
  exact nonempty same

theorem Place.start_lt_stop (p : Place text) : p.start < p.stop := by
  have nonempty : p.taken ≠ [] := by
    obtain ⟨span, piece, stands⟩ := p
    cases stands with
    | block stands =>
      obtain ⟨-, head, body, taken, -⟩ := stands
      rw [taken]
      exact List.append_ne_nil_of_right_ne_nil _ (List.cons_ne_nil _ _)
    | unclosed stands => exact stands.taken_ne_nil
    | headless stands => exact stands.taken_ne_nil
  exact Nat.lt_add_of_pos_right (List.length_pos_of_ne_nil nonempty)

theorem Place.contains_start (p : Place text) {i : Nat} (here : p.start = i) : p.Contains i :=
  ⟨here.le, here ▸ p.start_lt_stop⟩

/-! ## Lines further down -/

/-- A line begins behind a text, or right at its end if that is fresh. -/
def Behind (fresh : Bool) (before before' : List Char) : Prop :=
  LineStart before' ∧ ∃ mid, before' = before ++ mid ∧ (fresh = false → '\n' ∈ mid)

variable {before before' taken cs cs' : List Char} {fresh : Bool}

theorem Behind.eq_or (behind : Behind true before before') :
    before' = before ∨ Behind false before before' := by
  obtain ⟨start, mid, rfl, -⟩ := behind
  by_cases more : mid = []
  · exact .inl (by rw [more, List.append_nil])
  · exact .inr ⟨start, mid, rfl, fun _ => start.newline_mem more⟩

theorem Behind.of_false (behind : Behind false before before') : Behind true before before' := by
  obtain ⟨start, mid, same, -⟩ := behind
  exact ⟨start, mid, same, nofun⟩

theorem Behind.of_append (behind : Behind fresh (before ++ taken) before')
    (ended : fresh = true → '\n' ∈ taken) : Behind false before before' := by
  obtain ⟨start, mid, rfl, ends⟩ := behind
  refine ⟨start, taken ++ mid, List.append_assoc .., fun _ => ?_⟩
  cases fresh with
  | true => exact List.mem_append_left _ (ended rfl)
  | false => exact List.mem_append_right _ (ends rfl)

theorem Behind.length_le (behind : Behind fresh before before') :
    before.length ≤ before'.length := by
  obtain ⟨-, mid, rfl, -⟩ := behind
  rw [List.length_append]
  exact Nat.le_add_right _ _

/-- A line that begins further down begins within the next part of the text, or behind that. -/
theorem Behind.within_or (behind : Behind false before before')
    (same : before ++ (taken ++ cs) = before' ++ cs') (goesOn : ∀ c ∈ taken.getLast?, c ≠ '\n') :
    (∃ front back, taken = front ++ back ∧ back ≠ [] ∧ '\n' ∈ front ∧ before' = before ++ front ∧
        cs' = back ++ cs) ∨
      Behind false (before ++ taken) before' := by
  obtain ⟨start, mid, rfl, ends⟩ := behind
  have ends := ends rfl
  have apart : mid ≠ taken := by
    rintro rfl
    have last := List.getLast?_eq_some_getLast (List.ne_nil_of_mem ends)
    exact goesOn _ last (start _ (by rw [List.getLast?_append, last]; rfl))
  rw [List.append_assoc, List.append_cancel_left_eq] at same
  rcases List.append_eq_append_iff.1 same with ⟨more, rfl, rfl⟩ | ⟨back, rfl, rfl⟩
  · refine .inr ⟨start, more, (List.append_assoc ..).symm, fun _ => ?_⟩
    rw [← List.append_assoc] at start
    refine start.newline_mem ?_
    rintro rfl
    exact apart (List.append_nil _)
  · refine .inl ⟨mid, back, rfl, ?_, ends, rfl, rfl⟩
    rintro rfl
    exact apart (List.append_nil _).symm

/-! ## Places of pieces -/

/-- A heading at the beginning of a line, and behind it all that begins further down. -/
theorem Headed.exists_at {h : Heading} (headed : Headed h cs) (text_eq : text = before ++ cs)
    (start : LineStart before) :
    ∃ p : Span text, p.before = before ∧ h.At p ∧
      ∀ q : Place text, Behind false before q.before → p.stop ≤ q.start := by
  obtain ⟨front, split, -, oneLine⟩ := headed.front
  have named : text = before ++ (front ++ h.rest) := split ▸ text_eq
  refine ⟨⟨before, front, h.rest, named⟩, rfl, ⟨start, split ▸ headed, rfl⟩, ?_⟩
  intro q behind
  have goesOn : ∀ c ∈ front.getLast?, c ≠ '\n' := by
    rintro c last rfl
    exact oneLine (List.mem_of_getLast? last)
  rcases behind.within_or (named.symm.trans q.text_eq) goesOn with
    ⟨early, late, rfl, -, ends, -⟩ | further
  · exact absurd (List.mem_append_left _ ends) oneLine
  · have length_le := further.length_le
    rwa [List.length_append] at length_le

theorem blockText_of_numbered {kind : BlockKind} {name directives head body after : List Char}
    {n : Nat} (text_eq : text = before ++ (head ++ '\x7b' :: (body ++ '\x7d' :: after)))
    (header : Header kind name directives head) (balanced : Balanced 0 body)
    (counted : n = (before ++ (head ++ ['\x7b'])).count '\n' + 1) :
    BlockText text head body
      ⟨kind, String.ofList name, directivesOf directives, numbered n (linesOf body)⟩ where
  header := ⟨directives, by rwa [String.toList_ofList], rfl⟩
  joined := by
    rw [map_numbered, linesOf_eq_splitOn, List.intercalate_splitOn]
  balanced := balanced
  lines := by
    intro k m line found
    rw [getElem?_numbered, Option.map_eq_some_iff] at found
    obtain ⟨inner, found, same⟩ := found
    cases same
    rw [linesOf_eq_splitOn] at found
    rw [length_numbered, linesOf_eq_splitOn, String.toList_ofList]
    obtain ⟨front, back, whole, first, last⟩ :=
      line_of_part (before ++ (head ++ ['\x7b'])) ('\x7d' :: after) found
    have here : text = before ++ (head ++ ['\x7b']) ++ (body ++ '\x7d' :: after) := by
      simp only [text_eq, List.append_assoc, List.cons_append, List.nil_append]
    refine ⟨front ++ inner ++ back, by omega, ?_, ⟨front, back, rfl⟩, fun early late => ?_⟩
    · rw [here, ← whole]
      congr 1
      omega
    · rw [first early, last late, List.nil_append, List.append_nil]

/-! ## Reading on -/

/-- What reading finds behind a part of a text: pieces in the order of their places, and one for
    every line that could open a block. -/
structure Scan (text before : List Char) (fresh : Bool) (ps : List Piece)
    (places : List (Place text)) : Prop where
  pieces : places.map Place.piece = ps
  behind : ∀ p ∈ places, Behind fresh before p.before
  ordered : places.Pairwise fun p q => p.stop ≤ q.start
  covered : ∀ before' cs h, text = before' ++ cs → Behind fresh before before' → Headed h cs →
    ∃ p ∈ places, p.Covers before'.length

namespace Scan

variable {ps : List Piece} {places : List (Place text)}

theorem nil (text_eq : text = before) : Scan text before false [] [] := by
  refine ⟨rfl, nofun, .nil, ?_⟩
  rintro before' cs h same ⟨-, mid, rfl, ends⟩ -
  rw [text_eq, List.append_assoc, List.self_eq_append_right, List.append_eq_nil_iff] at same
  cases same.1 ▸ ends rfl

theorem char {c : Char} (text_eq : text = before ++ c :: cs)
    (scan : Scan text (before ++ [c]) fresh ps places) (ends : fresh = true ↔ c = '\n') :
    Scan text before false ps places := by
  refine ⟨scan.pieces, ?_, scan.ordered, ?_⟩
  · intro p member
    refine (scan.behind p member).of_append fun here => ?_
    rw [ends.1 here]
    exact List.mem_singleton_self _
  · intro before' cs' h same behind headed
    refine scan.covered before' cs' h same ?_ headed
    obtain ⟨start, mid, rfl, newline⟩ := behind
    rw [text_eq, List.append_assoc, List.append_cancel_left_eq] at same
    obtain ⟨d, rest, rfl⟩ := List.exists_cons_of_ne_nil (List.ne_nil_of_mem (newline rfl))
    obtain ⟨rfl, -⟩ := List.cons.inj same
    refine ⟨start, rest, by rw [List.append_assoc]; rfl, fun stale => ?_⟩
    rcases List.mem_cons.1 (newline rfl) with same | further
    · exact absurd (ends.2 same.symm) (stale ▸ Bool.false_ne_true)
    · exact further

theorem line (text_eq : text = before ++ cs) (none : heading? cs = none)
    (scan : Scan text before false ps places) : Scan text before true ps places := by
  refine ⟨scan.pieces, fun p member => (scan.behind p member).of_false, scan.ordered, ?_⟩
  intro before' cs' h same behind headed
  rcases behind.eq_or with rfl | further
  · rw [text_eq, List.append_cancel_left_eq] at same
    rw [same, heading?_eq_some.2 headed] at none
    cases none
  · exact scan.covered before' cs' h same further headed

/-- A piece that opens a line comes in front of those that are found behind what was passed. -/
theorem cons (p : Place text) (passed : List Char) (first : before = p.before)
    (scan : Scan text (before ++ passed) false ps places)
    (separate : ∀ q ∈ places, p.stop ≤ q.start)
    (complete : ∀ before' cs h, text = before' ++ cs → Behind false before before' → Headed h cs →
      p.Covers before'.length ∨ Behind false (before ++ passed) before') :
    Scan text before true (p.piece :: ps) (p :: places) := by
  refine ⟨?_, ?_, List.pairwise_cons.2 ⟨separate, scan.ordered⟩, ?_⟩
  · rw [List.map_cons, scan.pieces]
  · refine List.forall_mem_cons.2 ⟨⟨p.lineStart, [], ?_, nofun⟩, fun q member => ?_⟩
    · rw [List.append_nil, first]
    · exact ((scan.behind q member).of_append nofun).of_false
  · intro before' cs h same behind headed
    rcases behind.eq_or with rfl | further
    · exact ⟨p, List.mem_cons_self, .inl (congrArg List.length first.symm)⟩
    · rcases complete before' cs h same further headed with here | further
      · exact ⟨p, List.mem_cons_self, here⟩
      · obtain ⟨q, member, covers⟩ := scan.covered before' cs h same further headed
        exact ⟨q, List.mem_cons_of_mem _ member, covers⟩

theorem headless {h : Heading} (text_eq : text = before ++ cs) (start : LineStart before)
    (headed : Headed h cs) (bare : h.Headless) (scan : Scan text before false ps places) :
    ∃ places', Scan text before true
      (.headless h.kind (String.ofList h.name) (before.count '\n' + 1) :: ps) places' := by
  obtain ⟨p, rfl, stands, separate⟩ := headed.exists_at text_eq start
  refine ⟨⟨p, _, .headless stands bare⟩ :: places,
    Scan.cons ⟨p, _, .headless stands bare⟩ [] rfl ?_ ?_ ?_⟩
  · rwa [List.append_nil]
  · exact fun q member => separate q (scan.behind q member)
  · intro before' cs' h' _ behind _
    exact .inr (by rwa [List.append_nil])

theorem unclosed {h : Heading} {directives head inner : List Char}
    (text_eq : text = before ++ (head ++ '\x7b' :: inner)) (start : LineStart before)
    (headed : Headed h (head ++ '\x7b' :: inner))
    (header : Header h.kind h.name directives head) (endless : h.Unclosed)
    (scan : Scan text (before ++ (head ++ ['\x7b'])) false ps places) :
    ∃ places', Scan text before true
      (.unclosed h.kind (String.ofList h.name) (before.count '\n' + 1) :: ps) places' := by
  obtain ⟨p, rfl, stands, separate⟩ := headed.exists_at text_eq start
  have opened : text = p.before ++ ((head ++ ['\x7b']) ++ inner) := by
    simp only [text_eq, List.append_assoc, List.cons_append, List.nil_append]
  have brace : ∀ c ∈ (head ++ ['\x7b']).getLast?, c ≠ '\n' := by
    rw [List.getLast?_concat]
    rintro c ⟨⟩
    decide
  refine ⟨⟨p, _, .unclosed stands endless⟩ :: places,
    Scan.cons ⟨p, _, .unclosed stands endless⟩ _ rfl scan ?_ ?_⟩
  · exact fun q member => separate q ((scan.behind q member).of_append nofun)
  · intro before' cs' h' same behind headed'
    rcases behind.within_or (opened.symm.trans same) brace with
      ⟨early, late, part, more, ends, rfl, rfl⟩ | further
    · exact absurd headed' (header.not_headed part more ends)
    · exact .inr further

theorem block {b : Block} {head body after : List Char}
    (text_eq : text = before ++ ((head ++ '\x7b' :: (body ++ ['\x7d'])) ++ after))
    (start : LineStart before) (written : BlockText text head body b)
    (scan : Scan text (before ++ (head ++ '\x7b' :: (body ++ ['\x7d']))) false ps places) :
    ∃ places', Scan text before true (.block b :: ps) places' := by
  let p : Place text := ⟨⟨before, _, after, text_eq⟩, _, .block ⟨start, head, body, rfl, written⟩⟩
  refine ⟨p :: places, Scan.cons p _ rfl scan ?_ ?_⟩
  · intro q member
    have further := (scan.behind q member).length_le
    rwa [List.length_append] at further
  · intro before' cs' h' same behind _
    have brace : ∀ c ∈ (head ++ '\x7b' :: (body ++ ['\x7d'])).getLast?, c ≠ '\n' := by
      rw [← List.cons_append, ← List.append_assoc, List.getLast?_concat]
      rintro c ⟨⟩
      decide
    rcases behind.within_or (text_eq.symm.trans same) brace with
      ⟨early, late, part, more, ends, rfl, -⟩ | further
    · have inside : p.stop = before.length + (early.length + late.length) := by
        rw [← List.length_append, ← part]
        rfl
      have begun := List.length_pos_of_mem ends
      have left := List.length_pos_of_ne_nil more
      refine .inl (.inr ⟨rfl, ?_⟩)
      rw [inside, List.length_append]
      exact ⟨Nat.lt_add_of_pos_right begun, by omega⟩
    · exact .inr further

end Scan

theorem exists_places {line : Nat} (text_eq : text = before ++ cs)
    (counted : line = before.count '\n' + 1) (start : fresh = true → LineStart before) :
    ∃ places, Scan text before fresh (piecesFrom line fresh cs) places := by
  fun_induction piecesFrom line fresh cs generalizing before with
  | case1 line cs none ih =>
    obtain ⟨places, scan⟩ := ih text_eq counted nofun
    exact ⟨places, scan.line text_eq none⟩
  | case2 line cs h heading name headless =>
    rename_i ih
    obtain ⟨places, scan⟩ := ih text_eq counted nofun
    subst counted
    have bare : h.Headless := by
      intro inner opening
      obtain ⟨directives, opens⟩ := opening_iff.1 opening
      cases headless.symm.trans opens
    exact scan.headless text_eq (start rfl) (heading?_eq_some.1 heading) bare
  | case3 line cs h heading name directives inner opens bodyLine unclosed =>
    rename_i ih
    have headed := heading?_eq_some.1 heading
    obtain ⟨head, rfl, header, lines⟩ := exists_header headed opens
    have opened : text = before ++ (head ++ ['\x7b']) ++ inner := by
      simp only [text_eq, List.append_assoc, List.cons_append, List.nil_append]
    have counted' : bodyLine = (before ++ (head ++ ['\x7b'])).count '\n' + 1 := by
      rw [List.count_append, lines]
      omega
    obtain ⟨places, scan⟩ := ih opened counted' nofun
    subst counted
    have endless : h.Unclosed :=
      ⟨inner, opening_iff.2 ⟨directives, opens⟩, closing?_eq_none.1 unclosed⟩
    exact scan.unclosed text_eq (start rfl) headed header endless
  | case4 line cs h heading name directives inner opens bodyLine body after closes =>
    rename_i ih
    obtain ⟨head, rfl, header, lines⟩ := exists_header (heading?_eq_some.1 heading) opens
    obtain ⟨rfl, balanced⟩ := closing?_eq_some.1 closes
    have counted' : bodyLine = (before ++ (head ++ ['\x7b'])).count '\n' + 1 := by
      rw [List.count_append, lines]
      omega
    have closed : text = before ++ ((head ++ '\x7b' :: (body ++ ['\x7d'])) ++ after) := by
      simp only [text_eq, List.append_assoc, List.cons_append, List.nil_append]
    have counted'' : bodyLine + body.count '\n' =
        (before ++ (head ++ '\x7b' :: (body ++ ['\x7d']))).count '\n' + 1 := by
      simp only [counted', List.count_append, List.count_cons_of_ne, List.count_nil, ne_eq,
        Char.reduceEq, not_false_eq_true]
      omega
    obtain ⟨places, scan⟩ := ih (closed.trans (List.append_assoc ..).symm) counted'' nofun
    exact scan.block closed (start rfl) (blockText_of_numbered text_eq header balanced counted')
  | case5 line => exact ⟨[], .nil (by rw [text_eq, List.append_nil])⟩
  | case6 line rest ih =>
    have counted' : line + 1 = (before ++ ['\n']).count '\n' + 1 := by
      rw [List.count_append, counted]
      rfl
    have start' : LineStart (before ++ ['\n']) := by
      rintro c last
      rw [List.getLast?_concat] at last
      exact (Option.some.inj last).symm
    obtain ⟨places, scan⟩ := ih (by rw [text_eq, List.append_assoc]; rfl) counted' fun _ => start'
    exact ⟨places, scan.char text_eq (by simp)⟩
  | case7 line c rest notEnd ih =>
    have counted' : line = (before ++ [c]).count '\n' + 1 := by
      rw [List.count_append, List.count_cons_of_ne notEnd, List.count_nil, counted]
    obtain ⟨places, scan⟩ := ih (by rw [text_eq, List.append_assoc]; rfl) counted' nofun
    exact ⟨places, scan.char text_eq (by simp [notEnd])⟩

end EntityGraph.Schema
