import EntityGraph.Proofs.Placement
import EntityGraph.Schema.Warning
import Mathlib.Data.List.Pairwise

/-!
What becomes of every line that could open a block. The places of pieces do not overlap, so such a
line belongs to one of them: it opens a block, or it is inside of one, or it is the line of a
heading that is passed over and has a warning of its own.
-/
namespace EntityGraph.Schema

variable {text before cs : List Char}

/-! ## Warnings -/

/-- Whether a warning is about a line. -/
def Warning.isAbout (line : Nat) : Warning → Bool
  | .unclosed _ _ n => n == line
  | .headless _ _ n => n == line
  | .unknownTarget _ _ _ _ => false

/-- The warning about a heading that is passed over, and what is wrong with it. -/
inductive Skipped (h : Heading) (line : Nat) : Warning → Prop
  | unclosed (endless : h.Unclosed) :
      Skipped h line (.unclosed h.kind (String.ofList h.name) line)
  | headless (bare : h.Headless) :
      Skipped h line (.headless h.kind (String.ofList h.name) line)

theorem Place.before_eq {p : Place text} (text_eq : text = before ++ cs)
    (here : p.start = before.length) : p.before = before ∧ p.taken ++ p.after = cs :=
  List.append_inj (p.text_eq.symm.trans text_eq) here

/-- A warning about a line comes from what opens this line. -/
theorem Place.opens_of_isAbout {p : Place text} {w : Warning} (text_eq : text = before ++ cs)
    (start : LineStart before)
    (warned : p.piece.unclosed? = some w ∨ p.piece.headless? = some w)
    (about : w.isAbout (before.count '\n' + 1) = true) :
    p.isBlock = false ∧ p.start = before.length := by
  have lineStart := p.lineStart
  obtain ⟨span, piece, stands⟩ := p
  have here : span.before.count '\n' = before.count '\n' → span.before = before :=
    lineStart.eq_of_count start (span.text_eq.symm.trans text_eq)
  cases stands with
  | block => rcases warned with warned | warned <;> cases warned
  | unclosed =>
    rcases warned with warned | warned
    · cases warned
      exact ⟨rfl, congrArg List.length (here (Nat.succ.inj (beq_iff_eq.1 about)))⟩
    · cases warned
  | headless =>
    rcases warned with warned | warned
    · cases warned
    · cases warned
      exact ⟨rfl, congrArg List.length (here (Nat.succ.inj (beq_iff_eq.1 about)))⟩

/-- Nothing is said about a line that no skipped heading opens. -/
theorem warnings_eq_nil {places : List (Place text)} (text_eq : text = before ++ cs)
    (start : LineStart before)
    (apart : ∀ p ∈ places, p.start = before.length → p.isBlock = true) :
    (pieceWarnings (places.map Place.piece)).filter
      (Warning.isAbout (before.count '\n' + 1)) = [] := by
  rw [List.filter_eq_nil_iff]
  intro w member about
  have warned : ∃ p ∈ places, p.piece.unclosed? = some w ∨ p.piece.headless? = some w := by
    rw [pieceWarnings, List.filterMap_map, List.filterMap_map] at member
    rcases List.mem_append.1 member with found | found
    · obtain ⟨p, member, said⟩ := List.mem_filterMap.1 found
      exact ⟨p, member, .inl said⟩
    · obtain ⟨p, member, said⟩ := List.mem_filterMap.1 found
      exact ⟨p, member, .inr said⟩
  obtain ⟨p, member, warned⟩ := warned
  obtain ⟨skipped, here⟩ := p.opens_of_isAbout text_eq start warned about
  rw [apart p member here] at skipped
  cases skipped

theorem Place.piece_of_skipped {p : Place text} {h : Heading} (text_eq : text = before ++ cs)
    (headed : Headed h cs) (here : p.start = before.length) (skipped : p.isBlock = false) :
    p.piece = .unclosed h.kind (String.ofList h.name) (before.count '\n' + 1) ∧ h.Unclosed ∨
      p.piece = .headless h.kind (String.ofList h.name) (before.count '\n' + 1) ∧
        h.Headless := by
  obtain ⟨rfl, rfl⟩ := Place.before_eq text_eq here
  obtain ⟨span, piece, stands⟩ := p
  cases stands with
  | block => cases skipped
  | unclosed stands endless =>
    obtain rfl := headed.unique stands.2.1
    exact .inl ⟨rfl, endless⟩
  | headless stands bare =>
    obtain rfl := headed.unique stands.2.1
    exact .inr ⟨rfl, bare⟩

/-- One warning is about the line of a skipped heading. -/
theorem warnings_eq_singleton {places : List (Place text)} {p : Place text} {h : Heading}
    (text_eq : text = before ++ cs) (start : LineStart before) (headed : Headed h cs)
    (ordered : places.Pairwise fun p q => p.stop ≤ q.start) (member : p ∈ places)
    (here : p.start = before.length) (skipped : p.isBlock = false) :
    ∃ w, (pieceWarnings (places.map Place.piece)).filter
        (Warning.isAbout (before.count '\n' + 1)) = [w] ∧
      Skipped h (before.count '\n' + 1) w := by
  obtain ⟨earlier, later, rfl⟩ := List.append_of_mem member
  obtain ⟨-, ordered, between⟩ := List.pairwise_append.1 ordered
  have silent : ∀ places : List (Place text), (∀ q ∈ places, q.start ≠ p.start) →
      (pieceWarnings (places.map Place.piece)).filter
        (Warning.isAbout (before.count '\n' + 1)) = [] := by
    intro places apart
    refine warnings_eq_nil text_eq start fun q member opens => ?_
    exact absurd (opens.trans here.symm) (apart q member)
  have front := silent earlier fun q member =>
    (q.start_lt_stop.trans_le (between q member p List.mem_cons_self)).ne
  have back := silent later fun q member =>
    (p.start_lt_stop.trans_le (List.rel_of_pairwise_cons ordered member)).ne'
  rw [pieceWarnings, List.filter_append, List.append_eq_nil_iff] at front back
  have only : (pieceWarnings ((earlier ++ ([p] ++ later)).map Place.piece)).filter
      (Warning.isAbout (before.count '\n' + 1)) =
        (pieceWarnings [p.piece]).filter (Warning.isAbout (before.count '\n' + 1)) := by
    simp only [pieceWarnings, List.map_append, List.map_cons, List.map_nil, List.filterMap_append,
      List.filter_append, front, back, List.nil_append, List.append_nil]
  rw [← List.singleton_append, only]
  rcases Place.piece_of_skipped text_eq headed here skipped with ⟨piece, endless⟩ | ⟨piece, bare⟩
  · rw [piece]
    exact ⟨_, List.filter_cons_of_pos (beq_self_eq_true _), .unclosed endless⟩
  · rw [piece]
    exact ⟨_, List.filter_cons_of_pos (beq_self_eq_true _), .headless bare⟩

/-! ## Blocks -/

/-- The spans of the blocks among some places. -/
def blockSpans (places : List (Place text)) : List (Span text) :=
  (places.filter Place.isBlock).map Place.toSpan

theorem forall₂_blockSpans (places : List (Place text)) :
    List.Forall₂ Block.At ((places.map Place.piece).filterMap Piece.block?)
      (blockSpans places) := by
  induction places with
  | nil => exact .nil
  | cons p rest ih =>
    obtain ⟨span, piece, stands⟩ := p
    cases stands with
    | block stands => exact .cons stands ih
    | unclosed => exact ih
    | headless => exact ih

theorem mem_blockSpans {places : List (Place text)} {q : Span text} :
    q ∈ blockSpans places ↔ ∃ p ∈ places, p.isBlock = true ∧ p.toSpan = q := by
  simp only [blockSpans, List.mem_map, List.mem_filter, and_assoc]

/-- Whether one of some spans begins at an index. -/
def Opens (spans : List (Span text)) (i : Nat) : Prop :=
  ∃ p ∈ spans, p.start = i

/-- Whether an index is inside of one of some spans. -/
def Within (spans : List (Span text)) (i : Nat) : Prop :=
  ∃ p ∈ spans, p.start < i ∧ i < p.stop

section

variable {places : List (Place text)} {p : Place text} {i : Nat}

theorem eq_of_contains (ordered : places.Pairwise fun p q => p.stop ≤ q.start) {q : Place text}
    (member : p ∈ places) (member' : q ∈ places) (contains : p.Contains i)
    (contains' : q.Contains i) : p = q := by
  let Apart (p q : Place text) : Prop := p = q ∨ p.stop ≤ q.start ∨ q.stop ≤ p.start
  have forward : places.Pairwise Apart := ordered.imp fun before => .inr (.inl before)
  have backward : places.Pairwise (flip Apart) := ordered.imp fun before => .inr (.inr before)
  have apart := forward.forall_of_forall_of_flip (fun p _ => .inl rfl) backward member member'
  rcases apart with same | before | behind
  · exact same
  · exact absurd (contains.2.trans_le (before.trans contains'.1)) (Nat.lt_irrefl i)
  · exact absurd (contains'.2.trans_le (behind.trans contains.1)) (Nat.lt_irrefl i)

theorem opens_blockSpans (ordered : places.Pairwise fun p q => p.stop ≤ q.start)
    (member : p ∈ places) (contains : p.Contains i) :
    Opens (blockSpans places) i ↔ p.isBlock = true ∧ p.start = i := by
  constructor
  · rintro ⟨_, found, opens⟩
    obtain ⟨q, member', block, rfl⟩ := mem_blockSpans.1 found
    obtain rfl := eq_of_contains ordered member member' contains (q.contains_start opens)
    exact ⟨block, opens⟩
  · rintro ⟨block, opens⟩
    exact ⟨p.toSpan, mem_blockSpans.2 ⟨p, member, block, rfl⟩, opens⟩

theorem within_blockSpans (ordered : places.Pairwise fun p q => p.stop ≤ q.start)
    (member : p ∈ places) (contains : p.Contains i) :
    Within (blockSpans places) i ↔ p.isBlock = true ∧ p.start < i := by
  constructor
  · rintro ⟨_, found, above, below⟩
    obtain ⟨q, member', block, rfl⟩ := mem_blockSpans.1 found
    obtain rfl := eq_of_contains ordered member member' contains ⟨above.le, below⟩
    exact ⟨block, above⟩
  · rintro ⟨block, above⟩
    exact ⟨p.toSpan, mem_blockSpans.2 ⟨p, member, block, rfl⟩, above, contains.2⟩

end

/-! ## Texts -/

/-- The warnings about a line of a text. -/
def warningsAbout (s : String) (line : Nat) : List Warning :=
  (pieceWarnings (pieces s)).filter (Warning.isAbout line)

/-- The blocks of a text stand in it one behind the other, and every line that begins with a
    heading opens one of them, or is inside of one, or has no body that ends and one warning. -/
theorem blocks_placed (s : String) : ∃ spans : List (Span s.toList),
    List.Forall₂ Block.At (blocks s) spans ∧
    spans.Pairwise (fun p q => p.stop ≤ q.start) ∧
    ∀ before cs h, s.toList = before ++ cs → LineStart before → Headed h cs →
      let i := before.length
      let line := before.count '\n' + 1
      (Opens spans i ∧ ¬ Within spans i ∧ warningsAbout s line = []) ∨
      (¬ Opens spans i ∧ Within spans i ∧ warningsAbout s line = []) ∨
      (¬ Opens spans i ∧ ¬ Within spans i ∧
        ∃ w, warningsAbout s line = [w] ∧ Skipped h line w) := by
  obtain ⟨places, scan⟩ : ∃ places, Scan s.toList [] true (pieces s) places :=
    exists_places rfl rfl fun _ => nofun
  refine ⟨blockSpans places, ?_, ?_, ?_⟩
  · rw [blocks, ← scan.pieces]
    exact forall₂_blockSpans places
  · exact List.pairwise_map.2 (scan.ordered.filter _)
  · intro before cs h text_eq start headed i line
    have behind : Behind true [] before := ⟨start, before, rfl, nofun⟩
    obtain ⟨p, member, covers⟩ := scan.covered before cs h text_eq behind headed
    have contains : p.Contains i := by
      rcases covers with here | ⟨-, above, below⟩
      · exact p.contains_start here
      · exact ⟨above.le, below⟩
    have opens := opens_blockSpans scan.ordered member contains
    have within := within_blockSpans scan.ordered member contains
    have silent : p.isBlock = true → warningsAbout s line = [] := by
      intro block
      rw [warningsAbout, ← scan.pieces]
      refine warnings_eq_nil text_eq start fun q member' here => ?_
      obtain rfl := eq_of_contains scan.ordered member member' contains (q.contains_start here)
      exact block
    rw [opens, within]
    rcases covers with here | ⟨block, above, below⟩
    · cases kind : p.isBlock with
      | true => exact .inl ⟨⟨rfl, here⟩, fun inside => inside.2.ne here, silent kind⟩
      | false =>
        refine .inr (.inr ⟨nofun, nofun, ?_⟩)
        rw [warningsAbout, ← scan.pieces]
        exact warnings_eq_singleton text_eq start headed scan.ordered member here kind
    · exact .inr (.inl ⟨fun opened => above.ne opened.2, ⟨block, above⟩, silent block⟩)

end EntityGraph.Schema
