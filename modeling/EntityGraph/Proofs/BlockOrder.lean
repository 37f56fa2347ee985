import EntityGraph.Proofs.Reading
import Mathlib.Data.List.Find
import Mathlib.Data.List.Nodup
import Mathlib.Data.List.Perm.Basic

/-!
The order of the blocks of a schema text, and the numbers of their lines. Every block is read by
itself, given the enumerations of the whole text; which of these is meant is a question of names,
and the names are distinct. So neither whether a text can be read nor what it declares hangs on the
order of its blocks, or on the lines on which they stand.
-/
namespace EntityGraph

open Results

namespace Schema

/-- A block whose lines have no numbers of their own. -/
def Block.unnumbered (b : Block) : Block :=
  { b with lines := b.lines.map fun line => (0, line.2) }

variable {dialect : Dialect} {enums : List EnumDefinition}

/-! ## Numbers of lines -/

theorem contentLines_unnumbered (b : Block) :
    b.unnumbered.contentLines = b.contentLines.map fun line => (0, line.2) := by
  simp only [Block.contentLines, Block.unnumbered, List.filterMap_map, List.map_filterMap]
  refine List.filterMap_congr fun line _ => ?_
  dsimp only [Function.comp_apply]
  split <;> rfl

/-- A line that declares something declares the same under every number. -/
theorem ofLine_renumbered {line block : String} {number : Int} {d : Declaration} (other : Int)
    (done : Declaration.ofLine line number block = .ok d) :
    Declaration.ofLine line other block = .ok { d with line := other } := by
  unfold Declaration.ofLine at done ⊢
  dsimp only at done ⊢
  split at done
  · split at done
    · cases done
    · rename_i named
      cases done
      rw [if_neg named]
  · cases done

theorem wholeArg?_renumbered {entity directive : String} {d : Declaration} {given : Option Int}
    (number : Int) (done : wholeArg? entity d directive = .ok given) :
    wholeArg? entity { d with line := number } directive = .ok given := by
  unfold wholeArg? at done ⊢
  dsimp only
  split at done
  · exact done
  · obtain ⟨v, value, done⟩ := bind_eq_ok.1 done
    refine bind_eq_ok.2 ⟨v, value, ?_⟩
    split at done
    · exact done
    · exact absurd done throw_ne_ok

theorem fieldOf_renumbered {entity : String} {d : Declaration} {enum : Option EnumDefinition}
    {f : Field} (number : Int) (done : fieldOf dialect entity d enum = .ok f) :
    fieldOf dialect entity { d with line := number } enum = .ok f := by
  simp only [fieldOf, bind_eq_ok, mapError_eq_ok] at done ⊢
  obtain ⟨type, typed, default, given, min, least, max, most, made⟩ := done
  exact ⟨type, typed, default, given, min, wholeArg?_renumbered number least, max,
    wholeArg?_renumbered number most, made⟩

/-- A member with another number for its line. -/
def Member.renumbered (number : Int) : Member → Member
  | .field f => .field f
  | .relation d => .relation { d with line := number }

theorem memberOf_renumbered {entity : String} {d : Declaration} {m : Member} (number : Int)
    (done : memberOf dialect enums entity d = .ok m) :
    memberOf dialect enums entity { d with line := number } = .ok (m.renumbered number) := by
  unfold memberOf at done ⊢
  obtain ⟨claimed, said, done⟩ := bind_eq_ok.1 done
  refine bind_eq_ok.2 ⟨claimed, said, ?_⟩
  dsimp only
  split at done
  · rename_i yes
    cases done
    rw [if_pos yes]
    rfl
  · rename_i no
    rw [if_neg no]
    split at done
    · rename_i scalar
      obtain ⟨f, made, same⟩ := bind_eq_ok.1 done
      cases same
      rw [if_pos scalar]
      exact bind_eq_ok.2 ⟨f, fieldOf_renumbered number made, rfl⟩
    · rename_i noScalar
      rw [if_neg noScalar]
      split at done
      · obtain ⟨f, made, same⟩ := bind_eq_ok.1 done
        cases same
        exact bind_eq_ok.2 ⟨f, fieldOf_renumbered number made, rfl⟩
      · cases done
        rfl

theorem itemOf_renumbered {block : String} {line : Nat × String} {x : Item} (number : Nat)
    (item : ItemOf dialect enums block line x) :
    ItemOf dialect enums block (number, line.2) x := by
  obtain ⟨d, declared, gives⟩ := item
  refine ⟨_, ofLine_renumbered number declared, ?_⟩
  cases gives with
  | field member => exact .field (memberOf_renumbered _ member)
  | relation member built => exact .relation (memberOf_renumbered _ member) built

theorem settingsFrom_unnumbered (b : Block) (s : EntitySettings)
    (directives : List (String × String)) :
    settingsFrom b.unnumbered s directives = settingsFrom b s directives := by
  induction directives generalizing s with
  | nil => rfl
  | cons directive rest ih =>
    obtain ⟨directive, name⟩ := directive
    simp only [settingsFrom, ih]
    rfl

theorem entityOf_unnumbered {b : Block} {e : Entity} :
    EntityOf dialect enums b.unnumbered e ↔ EntityOf dialect enums b e := by
  have lines : ∀ items, List.Forall₂ (ItemOf dialect enums b.name) b.unnumbered.contentLines items ↔
      List.Forall₂ (ItemOf dialect enums b.name) b.contentLines items := by
    intro items
    rw [contentLines_unnumbered, List.forall₂_map_left_iff]
    exact ⟨fun given => given.imp fun line _ item => itemOf_renumbered line.1 item,
      fun given => given.imp fun _ _ item => itemOf_renumbered 0 item⟩
  have settings : settingsOf b.unnumbered = settingsOf b := settingsFrom_unnumbered b _ _
  unfold EntityOf
  rw [settings]
  exact exists_congr fun _ => exists_congr fun items => and_congr_right fun _ =>
    and_congr_left fun _ => lines items

theorem enumOf_unnumbered (b : Block) : enumOf b.unnumbered = enumOf b := by
  have values : enumValues b.unnumbered = enumValues b := by
    rw [enumValues, contentLines_unnumbered, List.flatMap_map]
    rfl
  rw [enumOf, values]
  rfl

theorem configEntries_renumbered {b b' : Block} (named : b'.name = b.name) {es out : Entries}
    {lines lines' : List (Nat × String)}
    (same : List.Forall₂ (fun line line' => line'.2 = line.2) lines lines')
    (done : configEntries b es lines = .ok out) : configEntries b' es lines' = .ok out := by
  induction same generalizing es with
  | nil => exact done
  | @cons line line' _ _ first _ ih =>
    simp only [configEntries, bind_eq_ok, mapError_eq_ok, named, first] at done ⊢
    obtain ⟨d, declared, entry, given, done⟩ := done
    refine ⟨_, ofLine_renumbered line'.1 declared, entry, given, ?_⟩
    cases entry with
    | none => exact ih done
    | some entry => exact ih done

theorem appOf_unnumbered {bs : List Block} {a : App} :
    appOf (bs.map Block.unnumbered) = .ok a ↔ appOf bs = .ok a := by
  have configs : (bs.map Block.unnumbered).filter Block.isConfig =
      (bs.filter Block.isConfig).map Block.unnumbered := List.filter_map
  unfold appOf
  rw [configs]
  rcases bs.filter Block.isConfig with _ | ⟨b, _ | ⟨b', rest⟩⟩
  · exact Iff.rfl
  · have lines : List.Forall₂ (fun line line' => line'.2 = line.2) b.contentLines
        b.unnumbered.contentLines := by
      rw [contentLines_unnumbered, List.forall₂_map_right_iff]
      exact List.forall₂_same.2 fun _ _ => rfl
    have named : b.unnumbered.name = b.name := rfl
    simp only [List.map_cons, List.map_nil, bind_eq_ok, mapError_eq_ok]
    constructor
    · rintro ⟨es, given, read⟩
      have lines' := lines.flip.imp fun _ _ => Eq.symm
      exact ⟨es, configEntries_renumbered named.symm lines' given, read⟩
    · rintro ⟨es, given, read⟩
      exact ⟨es, configEntries_renumbered named lines given, read⟩
  · exact ⟨nofun, nofun⟩

/-- What blocks declare does not hang on the numbers of their lines. -/
theorem contentsOf_unnumbered {bs : List Block} {c : Contents} :
    ContentsOf dialect (bs.map Block.unnumbered) c ↔ ContentsOf dialect bs c := by
  have enums : (bs.map Block.unnumbered).filter Block.isEnum =
      (bs.filter Block.isEnum).map Block.unnumbered := List.filter_map
  have entities : (bs.map Block.unnumbered).filter Block.isEntity =
      (bs.filter Block.isEntity).map Block.unnumbered := List.filter_map
  have names : ∀ bs : List Block, (bs.map Block.unnumbered).map Block.name = bs.map Block.name :=
    fun bs => List.map_map
  constructor
  · rintro ⟨app, listed, enumsApart, declared, entitiesApart⟩
    rw [enums, List.forall₂_map_left_iff] at listed
    rw [entities, List.forall₂_map_left_iff] at declared
    rw [enums, names] at enumsApart
    rw [entities, names] at entitiesApart
    exact ⟨appOf_unnumbered.1 app, listed.imp fun b _ made => enumOf_unnumbered b ▸ made,
      enumsApart, declared.imp fun _ _ => entityOf_unnumbered.1, entitiesApart⟩
  · rintro ⟨app, listed, enumsApart, declared, entitiesApart⟩
    rw [← names, ← enums] at enumsApart
    rw [← names, ← entities] at entitiesApart
    refine ⟨appOf_unnumbered.2 app, ?_, enumsApart, ?_, entitiesApart⟩
    · rw [enums, List.forall₂_map_left_iff]
      exact listed.imp fun b _ made => (enumOf_unnumbered b).trans made
    · rw [entities, List.forall₂_map_left_iff]
      exact declared.imp fun _ _ => entityOf_unnumbered.2

/-! ## Order of blocks -/

theorem appOf_perm {bs bs' : List Block} (perm : bs.Perm bs') {a : App}
    (done : appOf bs = .ok a) : appOf bs' = .ok a := by
  have configs := perm.filter Block.isConfig
  unfold appOf at done ⊢
  rcases eq : bs.filter Block.isConfig with _ | ⟨b, _ | ⟨b', rest⟩⟩
  · rw [eq] at configs done
    rw [configs.nil_eq.symm]
    exact done
  · rw [eq] at configs done
    rw [← List.singleton_perm.1 configs]
    exact done
  · rw [eq] at done
    cases done

/-- Only the names of enumerations tell which one is meant. -/
theorem entityOf_perm {enums' : List EnumDefinition} (perm : enums.Perm enums')
    (apart : (enums.map EnumDefinition.name).Nodup) {b : Block} {e : Entity}
    (done : EntityOf dialect enums b e) : EntityOf dialect enums' b e := by
  have meant : ∀ base : String, enums.find? (·.name == base) = enums'.find? (·.name == base) := by
    refine fun base => List.find?_eq_find?_of_perm perm ?_
    rintro x ⟨mem, named⟩ y ⟨mem', named'⟩
    have one : x.name = y.name := (beq_iff_eq.1 named).trans (beq_iff_eq.1 named').symm
    exact List.inj_on_of_nodup_map apart mem mem' one
  have member : ∀ d, memberOf dialect enums b.name d = memberOf dialect enums' b.name d := by
    intro d
    simp only [memberOf, meant]
  obtain ⟨settings, items, set, given, rfl⟩ := done
  refine ⟨settings, items, set, given.imp ?_, rfl⟩
  rintro line x ⟨d, declared, gives⟩
  refine ⟨d, declared, ?_⟩
  cases gives with
  | field made => exact .field (member d ▸ made)
  | relation made built => exact .relation (member d ▸ made) built

/-- The names of enumerations are those of their blocks. -/
theorem names_of_enums {bs : List Block} {es : List EnumDefinition}
    (listed : List.Forall₂ (fun b e => enumOf b = .ok e) bs es) :
    es.map EnumDefinition.name = bs.map Block.name := by
  rw [← List.forall₂_eq_eq_eq, List.forall₂_map_left_iff, List.forall₂_map_right_iff]
  exact listed.flip.imp fun _ _ made => by rw [enum_of_enumOf made]

/-- Blocks in another order declare the same in another order. -/
theorem contentsOf_perm {bs bs' : List Block} (perm : bs.Perm bs') {c : Contents}
    (declared : ContentsOf dialect bs c) :
    ∃ c', ContentsOf dialect bs' c' ∧ c'.app = c.app ∧ c'.enums.Perm c.enums ∧
      c'.entities.Perm c.entities := by
  obtain ⟨app, listed, enumsApart, entities, entitiesApart⟩ := declared
  have enumBlocks := perm.filter Block.isEnum
  have entityBlocks := perm.filter Block.isEntity
  obtain ⟨enums', listed', enumsPerm⟩ := List.perm_comp_forall₂ enumBlocks.symm listed
  obtain ⟨entities', given, entitiesPerm⟩ := List.perm_comp_forall₂ entityBlocks.symm entities
  have named : (c.enums.map EnumDefinition.name).Nodup := names_of_enums listed ▸ enumsApart
  refine ⟨⟨c.app, entities', enums'⟩, ⟨appOf_perm perm app, listed', ?_, ?_, ?_⟩, rfl, enumsPerm,
    entitiesPerm⟩
  · exact (enumBlocks.map Block.name).nodup_iff.1 enumsApart
  · exact given.imp fun _ _ => entityOf_perm enumsPerm.symm named
  · exact (entityBlocks.map Block.name).nodup_iff.1 entitiesApart

/-! ## Texts -/

/-- What one order of the blocks declares, every other order of them declares, wherever they
    stand. -/
private theorem exists_read_reordered {s s' : String}
    (same : ((blocks s).map Block.unnumbered).Perm ((blocks s').map Block.unnumbered))
    {c : Contents} {warnings : List Warning} (done : read dialect s = .ok (c, warnings)) :
    ∃ c' warnings', read dialect s' = .ok (c', warnings') ∧ c'.app = c.app ∧
      c'.enums.Perm c.enums ∧ c'.entities.Perm c.entities := by
  have declared := contentsOf_unnumbered.2 (read_eq_ok.1 ⟨warnings, done⟩)
  obtain ⟨c', declared', parts⟩ := contentsOf_perm same declared
  obtain ⟨warnings', done'⟩ := read_eq_ok.2 (contentsOf_unnumbered.1 declared')
  exact ⟨c', warnings', done', parts⟩

/-- Of two texts with the same blocks, in any order and on any lines, both can be read or neither
    can, and they describe the same application, enumerations and entities. -/
theorem read_reordered {s s' : String} (dialect : Dialect)
    (same : ((blocks s).map Block.unnumbered).Perm ((blocks s').map Block.unnumbered)) :
    ((∃ c warnings, read dialect s = .ok (c, warnings)) ↔
      ∃ c warnings, read dialect s' = .ok (c, warnings)) ∧
    ∀ c warnings c' warnings', read dialect s = .ok (c, warnings) →
      read dialect s' = .ok (c', warnings') →
      c'.app = c.app ∧ c'.enums.Perm c.enums ∧ c'.entities.Perm c.entities := by
  constructor
  · constructor
    · rintro ⟨c, warnings, done⟩
      obtain ⟨c', warnings', done', -⟩ := exists_read_reordered same done
      exact ⟨c', warnings', done'⟩
    · rintro ⟨c, warnings, done⟩
      obtain ⟨c', warnings', done', -⟩ := exists_read_reordered same.symm done
      exact ⟨c', warnings', done'⟩
  · intro c warnings c' warnings' done done'
    obtain ⟨c'', warnings'', again, parts⟩ := exists_read_reordered same done
    obtain ⟨rfl, -⟩ := Prod.mk.inj (Except.ok.inj (again.symm.trans done'))
    exact parts

/-- A text whose first type refers to a type and to an enumeration further down. -/
def forward : String :=
  "type Task {
  state: State
  by: User
}
" ++ "type User {
  name: String
}
" ++
    "enum State {open}"

/-- The blocks of that text, the last one first. -/
def backward : String :=
  "enum State {open}
" ++ "type User {
  name: String
}
" ++
    "type Task {
  state: State
  by: User
}
"

/-- The blocks of the one text. -/
def forwardPieces : List Piece := [
  .block ⟨.type, "Task", [], [(1, ""), (2, "  state: State"), (3, "  by: User"), (4, "")]⟩,
  .block ⟨.type, "User", [], [(5, ""), (6, "  name: String"), (7, "")]⟩,
  .block ⟨.enum, "State", [], [(8, "open")]⟩]

/-- The blocks of the other text. -/
def backwardPieces : List Piece := [
  .block ⟨.enum, "State", [], [(1, "open")]⟩,
  .block ⟨.type, "User", [], [(2, ""), (3, "  name: String"), (4, "")]⟩,
  .block ⟨.type, "Task", [], [(5, ""), (6, "  state: State"), (7, "  by: User"), (8, "")]⟩]

/-- Both texts can be read. The state is a field in either, and the user is a relation. -/
theorem read_reordered_forward : ∃ c warnings c' warnings',
    read {} forward = .ok (c, warnings) ∧ read {} backward = .ok (c', warnings') ∧
    (c.entities.map fun e => (e.fieldNames, e.relations.map Relation.name)) =
      [(["state"], ["by"]), (["name"], [])] ∧
    c'.app = c.app ∧ c'.enums.Perm c.enums ∧ c'.entities.Perm c.entities := by
  have split : pieces forward = forwardPieces := by decide +kernel
  have split' : pieces backward = backwardPieces := by decide +kernel
  have same : ((blocks forward).map Block.unnumbered).Perm
      ((blocks backward).map Block.unnumbered) := by
    rw [blocks, split, blocks, split']
    decide +kernel
  have passes : readsPieces {} forwardPieces (fun c =>
      (c.entities.map fun e => (e.fieldNames, e.relations.map Relation.name)) ==
        [(["state"], ["by"]), (["name"], [])]) = true := by
    decide +kernel
  obtain ⟨c, warnings, done, items⟩ := exists_of_readsPieces split passes
  obtain ⟨both, parts⟩ := read_reordered {} same
  obtain ⟨c', warnings', done'⟩ := both.1 ⟨c, warnings, done⟩
  exact ⟨c, warnings, c', warnings', done, done', beq_iff_eq.1 items,
    parts c warnings c' warnings' done done'⟩

end Schema

end EntityGraph
