import EntityGraph.Failure
import EntityGraph.Proofs.Acceptors
import EntityGraph.Proofs.Plurals
import Mathlib.Data.List.Induction

/-!
Requests for a relation. A caller sets pieces of a draft, in any order and as often as it likes, and
has it built. As long as texts are given where texts belong, nothing is refused, and what is built
follows from the last setting of each piece: the pieces that are given are kept, and those on which
the check of a graph relies are there, whatever the names are made of.
-/
namespace EntityGraph

open Results

namespace Record

variable {key : String} {qs qs' : List Request}

/-! ## Proper requests -/

/-- The pieces that are texts as they are given. -/
def Piece.isText : Piece → Bool
  | foreignKey | localKey | relatedKey | name | morphName | pivotTable => true
  | _ => false

/-- A request with what belongs to its piece: a type, a text or null, a switch. -/
inductive Request.Proper : Request → Prop
  | type (t : RelationType) : Proper (.set .type [.value (.text t.label)])
  | owner (s : Option String) : Proper (.set .owner [.value (.ofText? s)])
  | target (s : Option String) : Proper (.set .target [.value (.ofText? s)])
  | text (p : Piece) (isText : p.isText = true) (s : Option String) :
    Proper (.set p [.value (.ofText? s)])
  | on (p : Piece) (isSwitch : p = .cascade ∨ p = .inferred) : Proper (.set p [])
  | switch (p : Piece) (isSwitch : p = .cascade ∨ p = .inferred) (v : Value) :
    Proper (.set p [.value v])
  | build : Proper .build

/-! ## Last settings -/

/-- What a request sets a piece to. -/
def Request.setting? (p : Piece) : Request → Option (List Argument)
  | set p' args => if p' = p then some args else none
  | build => none

/-- What a piece was last set to. -/
def lastSetting? (qs : List Request) (p : Piece) : Option (List Argument) :=
  (qs.filterMap (·.setting? p)).getLast?

/-- The text that a piece was last set to. -/
def lastText? (qs : List Request) (p : Piece) : Option String :=
  match lastSetting? qs p with
  | some [.value (.text s)] => some s
  | _ => none

/-- The type that was last set. -/
def lastType? (qs : List Request) : Option RelationType :=
  (lastText? qs .type).bind RelationType.ofLabel?

/-- Whether a switch was last set on. -/
def lastSwitch (qs : List Request) (p : Piece) : Bool :=
  match lastSetting? qs p with
  | none => false
  | some [] => true
  | some (a :: _) => a.toValue.isGiven

theorem lastSetting?_concat (qs : List Request) (q : Request) (p : Piece) :
    lastSetting? (qs ++ [q]) p = (q.setting? p <|> lastSetting? qs p) := by
  rw [lastSetting?, List.filterMap_append, List.getLast?_append, lastSetting?]
  cases found : q.setting? p <;> simp [found]

/-- The draft that the last settings describe. -/
def described (key : String) (qs : List Request) : Draft String where
  defaultLocalKey := key
  type := lastType? qs
  owner := (lastText? qs .owner).map Text.trim
  target := Relation.filled? ((lastText? qs .target).map Text.trim)
  foreignKey := lastText? qs .foreignKey
  localKey := lastText? qs .localKey
  relatedKey := lastText? qs .relatedKey
  name := lastText? qs .name
  morphName := lastText? qs .morphName
  pivotTable := lastText? qs .pivotTable
  cascade := lastSwitch qs .cascade
  inferred := lastSwitch qs .inferred

theorem described_congr (same : ∀ p, lastSetting? qs' p = lastSetting? qs p) :
    described key qs' = described key qs := by
  simp only [described, lastType?, lastText?, lastSwitch, same]

/-! ## Drafts after requests -/

@[simp] private theorem nameOf?_ofText? (s : Option String) :
    nameOf? (.value (.ofText? s)) = .ok (s.map Text.trim) := by
  cases s <;> rfl

@[simp] private theorem lastText?_concat_self (qs : List Request) (p : Piece) (s : Option String) :
    lastText? (qs ++ [.set p [.value (.ofText? s)]]) p = s := by
  rw [lastText?, lastSetting?_concat, Request.setting?, if_pos rfl]
  cases s <;> rfl

@[simp] private theorem lastText?_concat_other {q : Request} {p : Piece}
    (other : q.setting? p = none) : lastText? (qs ++ [q]) p = lastText? qs p := by
  rw [lastText?, lastSetting?_concat, other]
  rfl

@[simp] private theorem lastSwitch_concat_other {q : Request} {p : Piece}
    (other : q.setting? p = none) : lastSwitch (qs ++ [q]) p = lastSwitch qs p := by
  rw [lastSwitch, lastSetting?_concat, other]
  rfl

@[simp] private theorem apply_build (d : Draft Value) : (Request.build.apply d).1 = d := by
  rw [Request.apply]
  split
  · rfl
  · rfl

/-- A proper request changes a draft as it changes what the last settings describe. -/
theorem givenPieces_apply {d : Draft Value} {q : Request} (proper : q.Proper)
    (same : givenPieces d = givenPieces ((described key qs).map .text)) :
    givenPieces (q.apply d).1 = givenPieces ((described key (qs ++ [q])).map .text) := by
  simp only [givenPieces, Draft.map, described, lastType?, Draft.mk.injEq] at same ⊢
  cases proper with
  | type t =>
    have found : lastText? (qs ++ [.set .type [.value (.text t.label)]]) .type = some t.label :=
      lastText?_concat_self qs .type (some t.label)
    simp [Request.apply, setPiece, relationTypeOf, RelationType.ofLabel?_label, Request.setting?,
      same, found, ok_bind, pure, Except.pure]
  | owner s => simp [Request.apply, setPiece, Request.setting?, same, ok_bind, pure, Except.pure]
  | target s => simp [Request.apply, setPiece, Request.setting?, same, ok_bind, pure, Except.pure]
  | text p isText s =>
    cases p <;> cases isText <;>
      simp [Request.apply, setPiece, Request.setting?, same, Argument.toValue]
  | on p isSwitch =>
    rcases isSwitch with rfl | rfl
    all_goals
      simp [Request.apply, setPiece, Request.setting?, same, lastSwitch, lastSetting?_concat]
  | switch p isSwitch v =>
    rcases isSwitch with rfl | rfl
    all_goals
      simp [Request.apply, setPiece, Request.setting?, same, lastSwitch, lastSetting?_concat]
  | build =>
    have texts : ∀ p, lastText? (qs ++ [.build]) p = lastText? qs p :=
      fun p => lastText?_concat_other rfl
    have switches : ∀ p, lastSwitch (qs ++ [.build]) p = lastSwitch qs p :=
      fun p => lastSwitch_concat_other rfl
    simp only [apply_build, same, texts, switches, and_self]

/-- Whatever is asked of a draft, its last settings say what it is. -/
theorem givenPieces_draftAfter (proper : ∀ q ∈ qs, q.Proper) :
    givenPieces (draftAfter { defaultLocalKey := key } qs) =
      givenPieces ((described key qs).map .text) := by
  induction qs using List.reverseRecOn with
  | nil => rfl
  | append_singleton qs q ih =>
    have step := givenPieces_apply (proper q (by simp))
      (ih fun q member => proper q (List.mem_append_left _ member))
    rw [draftAfter, List.foldl_append]
    exact step

theorem buildSketch_draftAfter (proper : ∀ q ∈ qs, q.Proper) :
    buildSketch (draftAfter { defaultLocalKey := key } qs) =
      buildSketch ((described key qs).map .text) := by
  simp only [buildSketch, givenPieces_draftAfter proper]

theorem Request.Proper.taken {q : Request} (proper : q.Proper) (d : Draft Value) (f : PieceFault) :
    (q.apply d).2 ≠ .refused f := by
  cases proper with
  | type t =>
    simp [apply, setPiece, relationTypeOf, RelationType.ofLabel?_label, ok_bind, pure, Except.pure]
  | owner s => simp [apply, setPiece, ok_bind, pure, Except.pure]
  | target s => simp [apply, setPiece, ok_bind, pure, Except.pure]
  | text p isText s => cases p <;> cases isText <;> simp [apply, setPiece]
  | on p isSwitch => rcases isSwitch with rfl | rfl <;> simp [apply, setPiece]
  | switch p isSwitch v => rcases isSwitch with rfl | rfl <;> simp [apply, setPiece]
  | build =>
    rw [apply]
    split
    · exact nofun
    · exact nofun

/-! ## Ends -/

/-- No name was last set for an end, or only blanks. -/
def Unnamed (qs : List Request) (p : Piece) : Prop :=
  ∀ s ∈ lastText? qs p, Text.trim s = ""

/-- Requests after which a relation lacks its type or an end that it needs. -/
def Lacking (qs : List Request) : Prop :=
  lastType? qs = none ∨ Unnamed qs .owner ∨ (lastType? qs ≠ some .morphTo ∧ Unnamed qs .target)

private theorem unnamed_iff {p : Piece} :
    Unnamed qs p ↔ Relation.filled? ((lastText? qs p).map Text.trim) = none := by
  simp [Unnamed, Relation.filled?]

private theorem requiresTarget_iff (t : RelationType) :
    t.requiresTarget = true ↔ t ≠ .morphTo := by
  cases t <;> decide

/-- The name that an end has after trimming, the empty one for an unnamed end. -/
private theorem getD_target :
    (described key qs).target.getD "" = "" ↔ Unnamed qs .target := by
  rw [unnamed_iff]
  cases found : Relation.filled? ((lastText? qs .target).map Text.trim) with
  | none => simp [described, found]
  | some name => simp [described, found, (Relation.filled?_eq_some.1 found).2]

private theorem filled?_owner :
    Relation.filled? (described key qs).owner = none ↔ Unnamed qs .owner :=
  unnamed_iff.symm

/-- The ends are there just if nothing is lacking. -/
theorem exists_ends_described (key : String) (qs : List Request) :
    (∃ ends, (described key qs).ends = .ok ends) ↔ ¬ Lacking qs := by
  constructor
  · rintro ⟨⟨type, owner, target⟩, ends⟩
    obtain ⟨typed, owned, rfl, led⟩ := Draft.ends_eq_ok.1 ends
    rintro (untyped | unowned | ⟨single, unled⟩)
    · exact absurd (typed.symm.trans untyped) (by simp)
    · exact absurd (owned.symm.trans (filled?_owner.2 unowned)) (by simp)
    · have needed : type ≠ .morphTo := fun same => single (typed.trans (congrArg some same))
      exact led ((requiresTarget_iff type).2 needed) (getD_target.2 unled)
  · intro whole
    obtain ⟨typed, owned, led⟩ : lastType? qs ≠ none ∧ ¬ Unnamed qs .owner ∧
        (lastType? qs ≠ some .morphTo → ¬ Unnamed qs .target) := by
      simpa [Lacking, not_or] using whole
    obtain ⟨type, found⟩ := Option.ne_none_iff_exists'.1 typed
    obtain ⟨owner, named⟩ := Option.ne_none_iff_exists'.1 (mt filled?_owner.1 owned)
    refine ⟨(type, owner, (described key qs).target.getD ""),
      Draft.ends_eq_ok.2 ⟨found, named, rfl, fun needed => ?_⟩⟩
    refine mt getD_target.1 (led ?_)
    rw [found]
    exact fun same => (requiresTarget_iff type).1 needed (Option.some.inj same)

/-! ## Pieces that are filled in -/

/-- The text of a piece in a relation. -/
def textOf? (r : Relation) : Piece → Option String
  | .foreignKey => r.foreignKey
  | .localKey => r.localKey
  | .relatedKey => r.relatedKey
  | .name => some r.name
  | .morphName => r.morphName
  | .pivotTable => r.pivotTable
  | _ => none

/-- A relation as the last settings ask for it, with what they leave out filled in. -/
structure Fulfils (key : String) (qs : List Request) (r : Relation) : Prop where
  type : r.type = lastType? qs
  owner : some r.owner = (lastText? qs .owner).map Text.trim
  target : r.target = Relation.filled? ((lastText? qs .target).map Text.trim)
  texts : ∀ p, p.isText = true → ∀ s ∈ lastText? qs p, s ≠ "" → textOf? r p = some s
  cascade : r.cascade = lastSwitch qs .cascade
  inferred : r.inferred = lastSwitch qs .inferred
  foreignKey : Relation.filled? r.foreignKey ≠ none
  localKey : key ≠ "" → Relation.filled? r.localKey ≠ none
  relatedKey : r.type = some .belongsToMany → Relation.filled? r.relatedKey ≠ none
  morphName : r.isPolymorphic = true → Relation.filled? r.morphName ≠ none
  pivotTable : r.requiresPivot = true → Relation.filled? r.pivotTable ≠ none

/-- A polymorphic relation has something that its columns are named after. -/
private theorem exists_morphName (d : Draft String) {type : RelationType}
    (polymorphic : type.isPolymorphic = true) (owner target : String) :
    ∃ morph, morph ≠ "" ∧ (Relation.filled? d.morphName <|>
      Convention.morphName? type owner target) = some morph := by
  cases found : Relation.filled? d.morphName with
  | some text => exact ⟨text, (Relation.filled?_eq_some.1 found).2, rfl⟩
  | none =>
    by_cases anywhere : type = .morphTo
    · exact ⟨Name.snake owner ++ "able", by simp, by simp [Convention.morphName?, anywhere]⟩
    · refine ⟨Name.snake target ++ "able", by simp, ?_⟩
      simp [Convention.morphName?, anywhere, polymorphic]

section
variable {d : Draft String} {type : RelationType} {owner target : String}

theorem fill_keyed : Relation.filled? (d.fill type owner target).foreignKey ≠ none := by
  cases polymorphic : type.isPolymorphic with
  | false =>
    simp only [Draft.fill, polymorphic]
    exact Relation.filled?_orElse (Convention.foreignKey_ne_empty type owner target)
  | true =>
    obtain ⟨morph, -, found⟩ := exists_morphName d polymorphic owner target
    simp only [Draft.fill, polymorphic, found]
    exact Relation.filled?_orElse (by simp [Convention.morphKey])

theorem fill_named (polymorphic : type.isPolymorphic = true) :
    Relation.filled? (d.fill type owner target).morphName ≠ none := by
  obtain ⟨morph, filled, found⟩ := exists_morphName d polymorphic owner target
  simp only [Draft.fill, found, Relation.filled?_some filled]
  exact Option.some_ne_none morph

theorem fill_tabled (pivoted : type.requiresPivot = true) :
    Relation.filled? (d.fill type owner target).pivotTable ≠ none := by
  cases polymorphic : type.isPolymorphic with
  | false =>
    simp only [Draft.fill, pivoted, polymorphic]
    exact Relation.filled?_orElse (Convention.pivotTable_ne_empty owner target)
  | true =>
    obtain ⟨morph, filled, found⟩ := exists_morphName d polymorphic owner target
    simp only [Draft.fill, pivoted, polymorphic, found]
    exact Relation.filled?_orElse (Name.plural_ne_empty filled)

end

/-- What the last settings describe fulfils them, if nothing is lacking. -/
theorem fulfils_of_ends {type : RelationType} {owner target : String}
    (ends : (described key qs).ends = .ok (type, owner, target)) :
    Fulfils key qs ((described key qs).fill type owner target) := by
  obtain ⟨typed, owned, rfl, -⟩ := Draft.ends_eq_ok.1 ends
  constructor
  case type => exact typed.symm
  case owner => exact (Relation.filled?_eq_some.1 owned).1.symm
  case target =>
    show Relation.filled? (some ((described key qs).target.getD "")) = (described key qs).target
    cases found : (described key qs).target with
    | none => rfl
    | some name => exact Relation.filled?_some (Relation.filled?_eq_some.1 found).2
  case texts =>
    intro p isText s given filled
    have kept : Relation.filled? (lastText? qs p) = some s := given ▸ Relation.filled?_some filled
    cases p <;> cases isText <;> simp [textOf?, Draft.fill, described, kept]
  case cascade => rfl
  case inferred => rfl
  case foreignKey => exact fill_keyed
  case localKey => exact fun keyed => Relation.filled?_orElse keyed
  case relatedKey =>
    intro pairs
    obtain rfl : type = .belongsToMany := Option.some.inj pairs
    exact Relation.filled?_orElse (by simp)
  case morphName => exact fill_named
  case pivotTable => exact fill_tabled

/-! ## Answers -/

/-- What a caller is told who has the relation built after some requests. -/
def answer (key : String) (qs : List Request) : Reply :=
  (Request.build.apply (draftAfter { defaultLocalKey := key } qs)).2

/-- A relation is refused as one that lacks a piece. -/
def Reply.Refuses (reply : Reply) : Prop :=
  ∃ f p, reply = .unbuilt f ∧ Failure.ofSketch f = .problem p ∧ p.category = .relationDefinition

/-- What a caller can rely on who has a relation built after some requests. -/
structure Contract (key : String) (qs : List Request) : Prop where
  /-- The requests are taken. -/
  taken : ∀ q ∈ qs, ∀ d f, (q.apply d).2 ≠ .refused f
  /-- Of each piece only the last setting counts. -/
  last : ∀ qs', (∀ q ∈ qs', q.Proper) → (∀ p, lastSetting? qs' p = lastSetting? qs p) →
    answer key qs' = answer key qs
  refuses : (answer key qs).Refuses ↔ Lacking qs
  builds : ¬ Lacking qs → ∃ r, answer key qs = .built r ∧ Fulfils key qs r
  /-- Building once more gives the same. -/
  again : answer key (qs ++ [.build]) = answer key qs

/-- The answer is the one that the last settings give. -/
theorem answer_eq (key : String) (proper : ∀ q ∈ qs, q.Proper) :
    answer key qs = match buildSketch ((described key qs).map .text) with
      | .ok r => .built r
      | .error f => .unbuilt f := by
  rw [answer, Request.apply, buildSketch_draftAfter proper]
  cases buildSketch ((described key qs).map .text) with
  | ok r => rfl
  | error f => rfl

private theorem refuses_of_lacking (proper : ∀ q ∈ qs, q.Proper) (lacking : Lacking qs) :
    (answer key qs).Refuses := by
  rw [answer_eq key proper]
  cases result : buildSketch ((described key qs).map .text) with
  | ok r =>
    obtain ⟨type, owner, target, ends, -⟩ := Draft.build_eq_ok.1 (buildSketch_eq_ok.1 result)
    exact absurd lacking ((exists_ends_described key qs).1 ⟨_, ends⟩)
  | error f =>
    obtain ⟨unset, rfl⟩ := exists_of_buildSketch_error result
    refine ⟨.unset unset, _, rfl, rfl, ?_⟩
    cases unset <;> rfl

private theorem built_of_whole (key : String) (proper : ∀ q ∈ qs, q.Proper) (whole : ¬ Lacking qs) :
    ∃ r, answer key qs = .built r ∧ Fulfils key qs r := by
  obtain ⟨⟨type, owner, target⟩, ends⟩ := (exists_ends_described key qs).2 whole
  refine ⟨_, ?_, fulfils_of_ends ends⟩
  have done := Draft.build_eq_ok.2 ⟨type, owner, target, ends, rfl⟩
  rw [answer_eq key proper, buildSketch_eq_ok.2 done]

/-- Requests with texts where texts belong are answered as their last settings say. -/
theorem contract_of_proper (proper : ∀ q ∈ qs, q.Proper) (key : String) : Contract key qs where
  taken q member := (proper q member).taken
  last qs' proper' same := by
    rw [answer_eq key proper', answer_eq key proper, described_congr same]
  refuses := by
    refine ⟨fun refused => ?_, refuses_of_lacking proper⟩
    obtain ⟨f, p, unbuilt, -, -⟩ := refused
    by_contra whole
    obtain ⟨r, built, -⟩ := built_of_whole key proper whole
    rw [built] at unbuilt
    cases unbuilt
  builds := built_of_whole key proper
  again := by
    rw [answer, draftAfter, List.foldl_append]
    show (Request.build.apply (Request.build.apply (draftAfter _ qs)).1).2 = _
    rw [apply_build]
    rfl

/-- Requests for a relation between entities without a letter in their names; the type is set
    twice, and nothing is built when that is first tried. -/
def unlettered : List Request := [
  .set .type [.value (.text "hasMany")],
  .set .target [.value (.text " 日 ")],
  .build,
  .set .owner [.value (.text "Ж")],
  .set .foreignKey [.value .null],
  .set .cascade [],
  .set .type [.value (.text "morphToMany")]]

/-- All columns and the table of the pairs have a name. -/
theorem contract_of_proper_unlettered : (∀ q ∈ unlettered, q.Proper) ∧ Contract "id" unlettered ∧
    ∃ r, answer "id" unlettered = .built r ∧ r.target = some "日" ∧ r.foreignKey = some "able_id" ∧
      r.pivotTable = some "ables" ∧ r.name = "" := by
  have proper : ∀ q ∈ unlettered, q.Proper := by
    intro q member
    simp only [unlettered, List.mem_cons, List.not_mem_nil, or_false] at member
    rcases member with rfl | rfl | rfl | rfl | rfl | rfl | rfl
    · exact .type .hasMany
    · exact .target (some " 日 ")
    · exact .build
    · exact .owner (some "Ж")
    · exact .text .foreignKey rfl none
    · exact .on .cascade (.inl rfl)
    · exact .type .morphToMany
  have built : (described "id" unlettered).build = .ok {
      type := some .morphToMany, owner := "Ж", target := some "日", foreignKey := some "able_id",
      localKey := some "id", morphName := some "able", pivotTable := some "ables",
      cascade := true } := by
    decide +kernel
  have answered := answer_eq "id" proper
  rw [buildSketch_eq_ok.2 built] at answered
  exact ⟨proper, contract_of_proper proper "id", _, answered, rfl, rfl, rfl, rfl⟩

end Record

end EntityGraph
