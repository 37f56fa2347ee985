import EntityGraph.Proofs.Reading
import EntityGraph.Proofs.Rewording

/-!
Blocks that declare the same in other words. Contents are read from blocks one by one, so a text
with such a block in place of another one has the same contents, or ends with the same fault.
-/
namespace EntityGraph

open Results

namespace Schema

variable {dialect : Dialect} {possible : List EnumDefinition → Prop} {enums : List EnumDefinition}
  {bs bs' : List Block} {b b' : Block}

/-! ## Members and entities -/

/-- Members that give their entity the same, whichever other entities there are. -/
inductive Member.Alike (dialect : Dialect) (entity : String) : Member → Member → Prop
  | field (f : Field) : Alike dialect entity (.field f) (.field f)
  | relation {d d' : Declaration}
      (same : ∀ names, relationOf dialect names entity d = relationOf dialect names entity d') :
      Alike dialect entity (.relation d) (.relation d')

theorem Member.Alike.refl {entity : String} (m : Member) : m.Alike dialect entity m := by
  cases m with
  | field f => exact .field f
  | relation d => exact .relation fun _ => rfl

/-- Entities without their relations, which will be the same when these are read. -/
structure Shell.Alike (dialect : Dialect) (s s' : Shell) : Prop where
  entity : s.entity = s'.entity
  pending : List.Forall₂ (fun d d' => ∀ names, relationOf dialect names s.entity.name d =
    relationOf dialect names s.entity.name d') s.pending s'.pending

theorem Shell.Alike.complete {s s' : Shell} (alike : s.Alike dialect s') (names : List String) :
    s.complete dialect names = s'.complete dialect names := by
  obtain ⟨entity, pending⟩ := alike
  have each := mapM_congr (pending.imp fun d d' same => same names)
  rw [Shell.complete, Shell.complete, each, entity]

/-- What a line of a block is read as. -/
def lineMember (dialect : Dialect) (enums : List EnumDefinition) (block : String)
    (line : Nat × String) : Except SchemaFault Member := do
  let d ← (Declaration.ofLine line.2 line.1 block).mapError .declaration
  memberOf dialect enums block d

theorem lineMember_of_ofLine {block text : String} {n : Nat} {d : Declaration}
    (declared : Declaration.ofLine text n block = .ok d) :
    lineMember dialect enums block (n, text) = memberOf dialect enums block d := by
  rw [lineMember, declared, mapError_ok, ok_bind]

theorem members_cons {block : String} (line : Nat × String) (rest : List (Nat × String)) :
    members dialect enums block (line :: rest) = (do
      let m ← lineMember dialect enums block line
      return m :: (← members dialect enums block rest)) := by
  simp only [members, lineMember, bind_assoc]

theorem related_members {block : String} {lines lines' : List (Nat × String)}
    (each : List.Forall₂ (fun line line' => Related (Member.Alike dialect block)
      (lineMember dialect enums block line) (lineMember dialect enums block line')) lines lines') :
    Related (List.Forall₂ (Member.Alike dialect block)) (members dialect enums block lines)
      (members dialect enums block lines') := by
  induction each with
  | nil => exact .ok .nil
  | cons first _ ih =>
    rw [members_cons, members_cons]
    apply first.bind
    intro m m' alike
    apply ih.bind
    intro ms ms' others
    exact .ok (.cons alike others)

private theorem alike_of_members {block : String} {ms ms' : List Member}
    (alike : List.Forall₂ (Member.Alike dialect block) ms ms') (e : Entity)
    (named : e.name = block) :
    Shell.Alike dialect ⟨{ e with fields := ms.filterMap Member.field? },
        ms.filterMap Member.relation?⟩
      ⟨{ e with fields := ms'.filterMap Member.field? }, ms'.filterMap Member.relation?⟩ := by
  have fields : ms.filterMap Member.field? = ms'.filterMap Member.field? := by
    induction alike with
    | nil => rfl
    | cons first _ ih =>
      cases first with
      | field f => exact congrArg (f :: ·) ih
      | relation same => exact ih
  refine ⟨by rw [fields], ?_⟩
  dsimp only
  rw [named]
  clear fields
  induction alike with
  | nil => exact .nil
  | cons first _ ih =>
    cases first with
    | field f => exact ih
    | relation same => exact .cons same ih

/-! ## Blocks -/

/-- Blocks with the same header, the lines of which say the same or, in the body of an entity, give
    the entity the same. -/
structure Block.Alike (dialect : Dialect) (possible : List EnumDefinition → Prop)
    (b b' : Block) : Prop where
  kind : b.kind = b'.kind
  name : b.name = b'.name
  directives : b.directives = b'.directives
  content : b.isEntity = false → b.contentLines = b'.contentLines
  member : b.isEntity = true → ∀ enums, possible enums →
    List.Forall₂ (fun line line' => Related (Member.Alike dialect b.name)
      (lineMember dialect enums b.name line) (lineMember dialect enums b.name line'))
      b.contentLines b'.contentLines

theorem Block.Alike.of_content (kind : b.kind = b'.kind) (name : b.name = b'.name)
    (directives : b.directives = b'.directives) (content : b.contentLines = b'.contentLines) :
    b.Alike dialect possible b' := by
  refine ⟨kind, name, directives, fun _ => content, ?_⟩
  intro _ enums _
  rw [content]
  exact List.forall₂_same.2 fun line _ => Related.refl Member.Alike.refl _

theorem Block.Alike.refl (b : Block) : b.Alike dialect possible b :=
  .of_content rfl rfl rfl rfl

namespace Block.Alike

theorem isConfig (alike : b.Alike dialect possible b') : b.isConfig = b'.isConfig := by
  rw [Block.isConfig, Block.isConfig, alike.kind, alike.directives]

theorem isEnum (alike : b.Alike dialect possible b') : b.isEnum = b'.isEnum := by
  rw [Block.isEnum, Block.isEnum, alike.kind]

theorem isEntity (alike : b.Alike dialect possible b') : b.isEntity = b'.isEntity := by
  rw [Block.isEntity, Block.isEntity, alike.kind, alike.isConfig]

theorem settingsOf (alike : b.Alike dialect possible b') :
    settingsOf b = Schema.settingsOf b' := by
  rw [Schema.settingsOf, Schema.settingsOf]
  generalize settingDirectives = ds
  generalize ({} : EntitySettings) = s
  induction ds generalizing s with
  | nil => rfl
  | cons d ds ih =>
    obtain ⟨directive, name⟩ := d
    rw [settingsFrom, settingsFrom, alike.directives]
    simp only [ih]

theorem shellOf (alike : b.Alike dialect possible b') (entity : b.isEntity = true)
    (among : possible enums) : Related (Shell.Alike dialect) (shellOf dialect enums b)
      (Schema.shellOf dialect enums b') := by
  have table : tableOf b = tableOf b' := by rw [tableOf, tableOf, alike.directives]
  simp only [Schema.shellOf, entityPart_shellRecord]
  rw [alike.settingsOf, ← table, ← alike.name]
  apply (Related.refl (R := Eq) (fun _ => rfl) (Schema.settingsOf b')).bind
  rintro settings _ rfl
  apply (related_members (alike.member entity enums among)).bind
  intro ms ms' related
  exact .ok (alike_of_members related _ rfl)

end Block.Alike

/-! ## Contents -/

private theorem forall₂_filter {p : Block → Bool}
    (same : ∀ b b', b.Alike dialect possible b' → p b = p b')
    (alike : List.Forall₂ (Block.Alike dialect possible) bs bs') :
    List.Forall₂ (fun b b' => b.Alike dialect possible b' ∧ p b = true) (bs.filter p)
      (bs'.filter p) := by
  induction alike with
  | nil => exact .nil
  | @cons b b' _ _ first _ ih =>
    by_cases kept : p b = true
    · rw [List.filter_cons_of_pos kept, List.filter_cons_of_pos (same b b' first ▸ kept)]
      exact .cons ⟨first, kept⟩ ih
    · rw [List.filter_cons_of_neg kept, List.filter_cons_of_neg (same b b' first ▸ kept)]
      exact ih

private theorem configEntries_eq (name : b.name = b'.name) (es : Entries)
    (lines : List (Nat × String)) : configEntries b es lines = configEntries b' es lines := by
  induction lines generalizing es with
  | nil => rfl
  | cons line rest ih =>
    rw [configEntries, configEntries, name]
    simp only [ih]

theorem appOf_alike (alike : List.Forall₂ (Block.Alike dialect possible) bs bs') :
    appOf bs = appOf bs' := by
  have configs := forall₂_filter (fun b b' => Block.Alike.isConfig) alike
  rw [appOf.eq_def, appOf.eq_def]
  generalize bs.filter Block.isConfig = cs at configs ⊢
  generalize bs'.filter Block.isConfig = cs' at configs ⊢
  have names : cs.map Block.name = cs'.map Block.name :=
    map_eq_of_related configs fun b b' same => same.1.name
  cases configs with
  | nil => rfl
  | @cons b b' _ _ first others =>
    cases others with
    | nil =>
      obtain ⟨same, config⟩ := first
      have plain : b.isEntity = false := by simp [Block.isEntity, config]
      dsimp only
      rw [configEntries_eq same.name, same.content plain, same.name]
    | cons second others =>
      dsimp only
      rw [names]

theorem enumsOf_alike (alike : List.Forall₂ (Block.Alike dialect possible) bs bs') :
    enumsOf bs = enumsOf bs' := by
  have listed := forall₂_filter (fun b b' => Block.Alike.isEnum) alike
  rw [enumsOf, enumsOf]
  generalize ([] : List String) = seen
  generalize bs.filter Block.isEnum = es at listed ⊢
  generalize bs'.filter Block.isEnum = es' at listed ⊢
  induction listed generalizing seen with
  | nil => rfl
  | @cons b b' _ _ first _ ih =>
    obtain ⟨same, enum⟩ := first
    have plain : b.isEntity = false := by
      have kind : b.kind = .enum := by simpa [Block.isEnum] using enum
      simp [Block.isEntity, kind]
    have values : enumValues b = enumValues b' := by
      rw [enumValues, enumValues, same.content plain]
    have first : enumOf b = enumOf b' := by
      rw [enumOf, enumOf, same.name, values]
    rw [enumsFrom, enumsFrom, same.name, first]
    simp only [ih]

theorem related_shellsFrom (alike : List.Forall₂ (Block.Alike dialect possible) bs bs')
    (among : possible enums) (seen : List String) :
    Related (List.Forall₂ (Shell.Alike dialect))
      (shellsFrom dialect enums seen (bs.filter Block.isEntity))
      (shellsFrom dialect enums seen (bs'.filter Block.isEntity)) := by
  have entities := forall₂_filter (fun b b' => Block.Alike.isEntity) alike
  generalize bs.filter Block.isEntity = es at entities ⊢
  generalize bs'.filter Block.isEntity = es' at entities ⊢
  induction entities generalizing seen with
  | nil => exact .ok .nil
  | cons first _ ih =>
    obtain ⟨same, entity⟩ := first
    rw [shellsFrom, shellsFrom, ← same.name]
    apply (same.shellOf entity among).bind
    intro s s' shell
    split
    · exact .error _
    · apply (ih _).bind
      intro ss ss' shells
      exact .ok (.cons shell shells)

theorem contentsOf_alike
    (alike : List.Forall₂ (Block.Alike dialect fun enums => enumsOf bs = .ok enums) bs bs') :
    contentsOf dialect bs = contentsOf dialect bs' := by
  rw [contentsOf, contentsOf, ← appOf_alike alike, ← enumsOf_alike alike]
  cases appOf bs with
  | error e => rfl
  | ok app =>
    cases given : enumsOf bs with
    | error e => rfl
    | ok enums =>
      apply (related_shellsFrom alike given []).eq
      intro ss ss' shells
      -- Relations are read against the names of all entities, so these come first.
      have names : ss.map (·.entity.name) = ss'.map (·.entity.name) :=
        map_eq_of_related shells fun s s' same => by rw [same.entity]
      have each := mapM_congr (shells.imp fun s s' same =>
        same.complete (ss'.map (·.entity.name)))
      dsimp only
      rw [names, each]

/-- A text with another block in the place of one that is like it is read in the same way. -/
theorem Exchanged.read {s t : String} (exchanged : Exchanged s t b b')
    (alike : b.Alike dialect (fun enums => enumsOf (blocks s) = .ok enums) b') :
    read dialect t = Schema.read dialect s := by
  obtain ⟨ps, ps', here, there⟩ := exchanged
  rw [blocks, here] at alike
  have told : pieceWarnings (pieces t) = pieceWarnings (pieces s) := by
    rw [here, there]
    simp only [pieceWarnings, List.filterMap_append, List.filterMap_cons, Piece.unclosed?,
      Piece.headless?]
  have contents : contentsOf dialect ((pieces t).filterMap Piece.block?) =
      contentsOf dialect ((pieces s).filterMap Piece.block?) := by
    rw [here, there]
    symm
    apply contentsOf_alike
    simp only [List.filterMap_append, List.filterMap_cons, Piece.block?] at alike ⊢
    exact List.rel_append (List.forall₂_same.2 fun b _ => .refl b)
      (.cons alike (List.forall₂_same.2 fun b _ => .refl b))
  rw [Schema.read, Schema.read, told, contents]

end Schema

end EntityGraph
