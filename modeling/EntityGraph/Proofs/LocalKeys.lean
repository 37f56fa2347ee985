import EntityGraph.Proofs.Acceptors
import EntityGraph.Source.Loader

/-!
Reading a source with another default for local keys. The source is refused for the same reason or
declares the same, but for the local keys of relations that say nothing about theirs.
-/
namespace EntityGraph

open Results

/-- A relation with the default local key `key'` in place of `key`, or with a key of its own. -/
inductive Relation.Rekeyed (key key' : String) : Relation → Relation → Prop
  | same (r : Relation) : Rekeyed key key' r r
  | key {r : Relation} (keyed : r.localKey = some key) :
      Rekeyed key key' r { r with localKey := some key' }

structure Entity.Rekeyed (key key' : String) (e e' : Entity) : Prop where
  rest : e' = { e with relations := e'.relations }
  relations : List.Forall₂ (Relation.Rekeyed key key') e.relations e'.relations

/-- What a source declares, with rekeyed relations. -/
structure Contents.Rekeyed (key key' : String) (c c' : Contents) : Prop where
  app : c'.app = c.app
  entities : List.Forall₂ (Entity.Rekeyed key key') c.entities c'.entities
  enums : c'.enums = c.enums

variable {key key' : String}

theorem Entity.rekeyed_of_relations (e : Entity) {rs rs' : List Relation}
    (rekeyed : List.Forall₂ (Relation.Rekeyed key key') rs rs') :
    Entity.Rekeyed key key' { e with relations := rs } { e with relations := rs' } :=
  ⟨rfl, rekeyed⟩

theorem Contents.Rekeyed.refl (c : Contents) : Contents.Rekeyed key key' c c :=
  ⟨rfl, List.forall₂_same.2 fun _ _ => ⟨rfl, List.forall₂_same.2 fun r _ => .same r⟩, rfl⟩

/-! ## Parts from records -/

namespace Record

section
variable {α : Type} {p : Part α} {R : α → α → Prop} {r r' : Record}

/-- Changes that lead from related parts to related parts. -/
def Keeps (R : α → α → Prop) (change change' : α → α) : Prop :=
  ∀ x x', R x x' → R (change x) (change' x')

private theorem related_both {f f' g g' : Except (List Fault) (α → α)}
    (first : Related (Keeps R) f f') (later : Related (Keeps R) g g') :
    Related (Keeps R) (both (fun f g x => g (f x)) f g) (both (fun f g x => g (f x)) f' g') := by
  cases first with
  | error e =>
    cases later with
    | error e' => exact .error (e ++ e')
    | ok _ => exact .error e
  | ok here =>
    cases later with
    | error e' => exact .error e'
    | ok there => exact .ok fun x x' related => there _ _ (here x x' related)

/-- Records give related parts if each attribute is read from them in a related way. -/
theorem related_ofRecord (names : r'.map Prod.fst = r.map Prod.fst) (blank : R p.blank p.blank)
    (each : ∀ a ∈ p.attributes, Related (Keeps R) (Part.readAttribute (entries r) a)
      (Part.readAttribute (entries r') a)) :
    Related R (p.ofRecord r) (p.ofRecord r') := by
  have read : Related (Keeps R) (Part.readAttributes (entries r) p.attributes)
      (Part.readAttributes (entries r') p.attributes) := by
    generalize p.attributes = attributes at each
    induction attributes with
    | nil => exact .ok fun x x' related => related
    | cons a rest ih =>
      exact related_both (each a List.mem_cons_self)
        (ih fun a member => each a (List.mem_cons_of_mem _ member))
  have unknown : ∀ r : Record, p.unknown (entries r) = (r.map Prod.fst).filterMap fun name =>
      if p.attributes.any (·.name == name) then none
      else some ⟨[.name name], .unknownAttribute⟩ := by
    intro r
    rw [Part.unknown, entries, List.filterMap_map, List.filterMap_map]
    rfl
  show Related R ((p.readEntries (entries r)).mapError _) ((p.readEntries (entries r')).mapError _)
  apply Related.mapError
  rw [Part.readEntries, Part.readEntries, unknown r', names, ← unknown r]
  generalize Part.readAttributes (entries r) p.attributes = x at read
  generalize Part.readAttributes (entries r') p.attributes = x' at read
  cases read with
  | error faults => exact .error _
  | ok keeps =>
    dsimp only
    split
    · exact .ok (keeps _ _ blank)
    · exact .error _

end

/-! ## Drafts -/

/-- Other attributes than the local key have no part in what is rekeyed. -/
private theorem keeps_of_accept {a : Attribute Relation} (member : a ∈ relationPart.attributes)
    (apart : a.name ≠ "local_key") {v : Value} {change : Relation → Relation}
    (accepted : a.accept v = .ok change) : Keeps (Relation.Rekeyed key key') change change := by
  simp only [relationPart, List.mem_cons, List.not_mem_nil, or_false] at member
  rcases member with rfl | rfl | rfl | rfl | rfl | rfl | rfl | rfl | rfl | rfl | rfl
  case inr.inr.inr.inr.inl => exact absurd rfl apart
  all_goals
    obtain ⟨x, -, rfl⟩ := map_eq_ok.1 accepted
    rintro r r' (_ | keyed)
    · exact .same _
    · exact .key keyed

/-- Records that differ in what they have as local key. -/
private structure Rekeyed (key key' : String) (r r' : Record) : Prop where
  names : r'.map Prod.fst = r.map Prod.fst
  others : ∀ name, name ≠ "local_key" → r'.lookup name = r.lookup name
  before : r.lookup "local_key" = some (.text key)
  after : r'.lookup "local_key" = some (.text key')

private theorem related_relationPart {r r' : Record} (rekeyed : Rekeyed key key' r r') :
    Related (Relation.Rekeyed key key') (relationPart.ofRecord r) (relationPart.ofRecord r') := by
  refine related_ofRecord rekeyed.names (.same _) fun a member => ?_
  by_cases here : a.name = "local_key"
  · have keyed : a = .optional "local_key" (orNull acceptText)
        fun x r => { r with localKey := x } := by
      simp only [relationPart, List.mem_cons, List.not_mem_nil, or_false] at member
      rcases member with rfl | rfl | rfl | rfl | rfl | rfl | rfl | rfl | rfl | rfl | rfl
      case inr.inr.inr.inr.inl => rfl
      all_goals exact absurd here (by decide)
    rw [Part.readAttribute, Part.readAttribute, find?_entries, find?_entries, here,
      rekeyed.before, rekeyed.after, keyed]
    refine .ok ?_
    rintro r r' (_ | keyed)
    · exact .key (r := { r with localKey := some key }) rfl
    · exact .key (r := { r with localKey := some key }) rfl
  · have same : Part.readAttribute (entries r') a = Part.readAttribute (entries r) a := by
      rw [Part.readAttribute, Part.readAttribute, find?_entries, find?_entries,
        rekeyed.others _ here]
    rw [same]
    refine Related.self fun change done => ?_
    rw [Part.readAttribute] at done
    split at done
    · rw [under, mapError_eq_ok] at done
      exact keeps_of_accept member here done
    · split at done
      · cases done
      · cases done
        exact fun x x' related => related

private theorem related_fillValues {d : Draft Value} (unset : d.localKey = none) (key' : String)
    (type : RelationType) (owner target : String) :
    Related (Rekeyed d.defaultLocalKey key') (fillValues d type owner target)
      (fillValues { d with defaultLocalKey := key' } type owner target) := by
  unfold fillValues
  simp only [unset, Option.getD_none]
  apply Related.bind_self
  intro foreignKey
  apply Related.bind_self
  intro pivot
  refine .ok ⟨rfl, fun name apart => ?_, by simp [List.lookup_cons], by simp [List.lookup_cons]⟩
  simp only [List.lookup_cons, beq_eq_false_iff_ne.2 apart]

/-- A draft built with another default local key. -/
theorem related_buildSketch (d : Draft Value) (key' : String) :
    Related (Relation.Rekeyed d.defaultLocalKey key') (buildSketch d)
      (buildSketch { d with defaultLocalKey := key' }) := by
  unfold buildSketch
  have ends : (givenPieces { d with defaultLocalKey := key' }).ends = (givenPieces d).ends := rfl
  dsimp only
  rw [ends]
  apply Related.bind_self
  rintro ⟨type, owner, target⟩
  dsimp only
  cases given : piece? d.localKey with
  | some v =>
    -- The default is not asked for, so the records are the same.
    have same : fillValues (givenPieces { d with defaultLocalKey := key' }) type owner target =
        fillValues (givenPieces d) type owner target := by
      simp only [fillValues, givenPieces, given, Option.getD_some]
    rw [same]
    exact Related.refl .same _
  | none =>
    apply (related_fillValues (d := givenPieces d) given key' type owner target).bind
    intro r r' rekeyed
    exact (related_relationPart rekeyed).mapError _

end Record

/-! ## Schema texts -/

namespace Schema

section
variable {dialect dialect' : Dialect} (scalars : dialect'.scalars = dialect.scalars)
  {enums : List EnumDefinition}
include scalars

private theorem memberOf_eq (block : String) (d : Declaration) :
    memberOf dialect' enums block d = memberOf dialect enums block d := by
  simp only [memberOf, fieldOf, fieldTypeOf, scalars]

private theorem members_eq (block : String) (lines : List (Nat × String)) :
    members dialect' enums block lines = members dialect enums block lines := by
  induction lines with
  | nil => rfl
  | cons line rest ih => simp only [members, memberOf_eq scalars, ih]

/-- Fields are read without regard to the default. -/
private theorem shellsFrom_eq (seen : List String) (bs : List Block) :
    shellsFrom dialect' enums seen bs = shellsFrom dialect enums seen bs := by
  induction bs generalizing seen with
  | nil => rfl
  | cons b rest ih => simp only [shellsFrom, shellOf, members_eq scalars, ih]

end

variable {dialect : Dialect}

private theorem related_relationOf (names : List String) (entity : String) (d : Declaration) :
    Related (fun x x' => Relation.Rekeyed dialect.defaultLocalKey key' x.1 x'.1 ∧ x'.2 = x.2)
      (relationOf dialect names entity d)
      (relationOf { dialect with defaultLocalKey := key' } names entity d) := by
  unfold relationOf
  apply Related.bind_self
  intro type
  apply ((Record.related_buildSketch _ key').mapError _).bind
  intro r r' rekeyed
  refine .ok ⟨rekeyed, ?_⟩
  have name : r'.name = r.name := by cases rekeyed <;> rfl
  simp only [name]

private theorem related_complete (names : List String) (s : Shell) :
    Related (fun x x' => Entity.Rekeyed dialect.defaultLocalKey key' x.1 x'.1 ∧ x'.2 = x.2)
      (s.complete dialect names) (s.complete { dialect with defaultLocalKey := key' } names) := by
  unfold Shell.complete
  apply (Related.mapM (List.forall₂_same.2 fun d _ =>
    related_relationOf names s.entity.name d)).bind
  intro xs xs' related
  have warnings : xs'.filterMap Prod.snd = xs.filterMap Prod.snd := by
    induction related with
    | nil => rfl
    | cons first _ ih => rw [List.filterMap_cons, List.filterMap_cons, first.2, ih]
  refine .ok ⟨s.entity.rekeyed_of_relations ?_, warnings⟩
  rw [List.forall₂_map_left_iff, List.forall₂_map_right_iff]
  exact related.imp fun x x' both => both.1

/-- A schema text read with another default local key. -/
theorem related_read (dialect : Dialect) (key' : String) (s : String) :
    Related (fun x x' => Contents.Rekeyed dialect.defaultLocalKey key' x.1 x'.1 ∧ x'.2 = x.2)
      (read dialect s) (read { dialect with defaultLocalKey := key' } s) := by
  have contents : ∀ bs, Related
      (fun x x' => Contents.Rekeyed dialect.defaultLocalKey key' x.1 x'.1 ∧ x'.2 = x.2)
      (contentsOf dialect bs) (contentsOf { dialect with defaultLocalKey := key' } bs) := by
    intro bs
    unfold contentsOf
    apply Related.bind_self
    intro app
    apply Related.bind_self
    intro enums
    have same : shellsFrom { dialect with defaultLocalKey := key' } enums []
        (bs.filter Block.isEntity) = shellsFrom dialect enums [] (bs.filter Block.isEntity) :=
      shellsFrom_eq (by rfl) _ _
    rw [same]
    apply Related.bind_self
    intro shells
    apply (Related.mapM (List.forall₂_same.2 fun s _ => related_complete _ s)).bind
    intro xs xs' related
    have warnings : xs'.flatMap Prod.snd = xs.flatMap Prod.snd := by
      induction related with
      | nil => rfl
      | cons first _ ih => rw [List.flatMap_cons, List.flatMap_cons, first.2, ih]
    refine .ok ⟨⟨rfl, ?_, rfl⟩, warnings⟩
    rw [List.forall₂_map_left_iff, List.forall₂_map_right_iff]
    exact related.imp fun x x' both => both.1
  unfold read
  apply (contents _).bind
  rintro ⟨c, told⟩ ⟨c', told'⟩ ⟨rekeyed, rfl⟩
  exact .ok ⟨rekeyed, rfl⟩

end Schema

/-! ## Documents -/

namespace Document

private theorem related_relationOf (key key' entity : String) (v : Value) :
    Related (Relation.Rekeyed key key') (relationOf key entity v) (relationOf key' entity v) := by
  unfold relationOf
  apply Related.bind_self
  intro item
  apply Related.bind_self
  intro target
  apply Related.bind_self
  intro type
  cases type with
  | none => exact Related.refl .same _
  | some type =>
    dsimp only
    split
    · exact Related.refl .same _
    · exact (Record.related_buildSketch (draftOf key entity type _ item) key').mapError _

private theorem related_entityOf (scalars : ScalarTable) (key key' : String)
    (enums : List EnumDefinition) (v : Value) :
    Related (Entity.Rekeyed key key') (entityOf scalars key enums v)
      (entityOf scalars key' enums v) := by
  unfold entityOf
  apply Related.bind_self
  intro item
  apply Related.bind_self
  intro name
  apply Related.bind_self
  intro section_
  apply Related.bind_self
  intro given
  apply Related.bind_self
  intro settings
  apply Related.bind_self
  intro shell
  apply Related.bind_self
  intro fieldValues
  apply Related.bind_self
  intro fields
  apply Related.bind_self
  intro relationValues
  apply (Related.mapM (List.forall₂_same.2 fun v _ => related_relationOf key key' _ v)).bind
  intro rs rs' rekeyed
  let declared : Entity := { shell with fields := fields, settings := settings }
  exact .ok (declared.rekeyed_of_relations rekeyed)

/-- A document read with another default local key. -/
theorem related_read (scalars : ScalarTable) (key key' : String) (v : Value) :
    Related (Contents.Rekeyed key key') (read scalars key v) (read scalars key' v) := by
  unfold read
  split
  · split
    · apply Related.bind_self
      intro app
      apply Related.bind_self
      intro enumValues
      apply Related.bind_self
      intro enums
      apply (Related.mapM (List.forall₂_same.2 fun v _ =>
        related_entityOf scalars key key' enums v)).bind
      intro es es' rekeyed
      exact .ok ⟨rfl, rekeyed, rfl⟩
    · exact .error _
    · exact .error _
  · exact .error _

end Document

/-! ## Loaders -/

/-- A source read by a loader with other options. A reader of the loader's own keeps its default. -/
theorem Loader.related_contents (l : Loader) (o o' : GraphOptions) (kind : SourceKind)
    (s : Source) :
    Related (fun x x' =>
        Contents.Rekeyed o.defaultLocalKey o'.defaultLocalKey x.1 x'.1 ∧ x'.2 = x.2)
      (s.contents { l with options := o }.dialect o.defaultLocalKey kind)
      (s.contents { l with options := o' }.dialect o'.defaultLocalKey kind) := by
  have scalars : { l with options := o' }.dialect.scalars =
      { l with options := o }.dialect.scalars := by
    cases l.reader <;> simp [Loader.dialect]
  cases kind with
  | sdl | graphql =>
    simp only [Source.contents]
    apply Related.bind_self
    intro text
    refine Related.mapError ?_ _
    cases l.reader with
    | none =>
      simp only [Loader.dialect, Option.getD_none]
      exact Schema.related_read { defaultLocalKey := o.defaultLocalKey } o'.defaultLocalKey text
    | some dialect =>
      simp only [Loader.dialect, Option.getD_some]
      exact Related.refl (fun x => ⟨Contents.Rekeyed.refl x.1, rfl⟩) _
  | json | yaml =>
    simp only [Source.contents, scalars]
    apply Related.bind_self
    intro v
    apply ((Document.related_read _ o.defaultLocalKey o'.defaultLocalKey v).mapError _).bind
    intro c c' rekeyed
    exact .ok ⟨rekeyed, rfl⟩

end EntityGraph
