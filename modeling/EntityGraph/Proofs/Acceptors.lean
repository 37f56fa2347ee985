import EntityGraph.Proofs.Inverse
import EntityGraph.Record.Sketch

/-!
Values that have the type of an attribute already: they are taken as they are. So a part is read
back from its own attributes, and a draft whose pieces are texts gives the relation that filling it
gives; neither can be refused.
-/
namespace EntityGraph.Record

open Results

/-! ## Single values -/

attribute [simp] under_ok both_ok

@[simp] theorem acceptText_text (s : String) : acceptText (.text s) = .ok s := rfl

@[simp] theorem acceptFlag_bool (b : Bool) : acceptFlag (.bool b) = .ok b := rfl

@[simp] theorem acceptAny_eq (v : Value) : acceptAny v = .ok v := rfl

@[simp] theorem orNull_ofText? (x : Option String) : orNull acceptText (.ofText? x) = .ok x := by
  cases x <;> rfl

@[simp] theorem orNull_ofInt? (x : Option Int) : orNull acceptWhole (.ofInt? x) = .ok x := by
  cases x <;> rfl

theorem acceptCount_of_le {least n : Nat} (enough : least ≤ n) :
    acceptCount least (.int n) = .ok n := by
  have taken : ¬ (n : Int) < least := by omega
  show (if (n : Int) < least then refuse .belowLeast else .ok (n : Int).toNat) = _
  rw [if_neg taken, Int.toNat_natCast]

theorem orNull_count {least : Nat} {x : Option Nat} (enough : ∀ n ∈ x, least ≤ n) :
    orNull (acceptCount least) (.ofInt? (x.map Int.ofNat)) = .ok x := by
  cases x with
  | none => rfl
  | some n =>
    show (acceptCount least (.int n)).map some = _
    rw [acceptCount_of_le (enough n rfl)]
    rfl

@[simp] theorem acceptList_ofTexts (xs : List String) :
    acceptList acceptText (.ofTexts xs) = .ok xs :=
  acceptMembers_text xs 0

theorem acceptMember_label {α : Type} {ofLabel? : String → Option α} {label : α → String}
    (known : ∀ a, ofLabel? (label a) = some a) (whole : ∀ a, Text.hasHalf (label a) = false)
    (x : Option α) : orNull (acceptMember ofLabel?) (.ofText? (x.map label)) = .ok x := by
  cases x with
  | none => rfl
  | some a =>
    show (acceptMember ofLabel? (.text (label a))).map some = _
    have accepted : acceptMember ofLabel? (.text (label a)) = .ok a := by
      simp [acceptMember, acceptText, wholeCharacters, whole, known, bind, Except.bind]
    rw [accepted]
    rfl

@[simp] theorem acceptMember_fieldType (x : Option FieldType) :
    orNull (acceptMember FieldType.ofLabel?) (.ofText? (x.map FieldType.label)) = .ok x :=
  acceptMember_label FieldType.ofLabel?_label (fun t => by cases t <;> decide +kernel) x

@[simp] theorem acceptMember_relationType (x : Option RelationType) :
    orNull (acceptMember RelationType.ofLabel?) (.ofText? (x.map RelationType.label)) = .ok x :=
  acceptMember_label RelationType.ofLabel?_label (fun t => by cases t <;> decide +kernel) x

/-! ## Parts -/

/-- The entries of a record. -/
def entries (r : Record) : Entries :=
  r.map fun (k, v) => (.text k, v)

@[simp] theorem find?_entries (r : Record) (key : String) :
    Value.find? (entries r) key = r.lookup key := by
  induction r with
  | nil => rfl
  | cons e rest ih =>
    obtain ⟨k, v⟩ := e
    rw [entries, Value.find?, List.map_cons, List.find?_cons, List.lookup_cons]
    by_cases here : k = key
    · simp [here]
    · have apart : (k == key) = false := by simpa using here
      have apart' : (key == k) = false := by simpa using Ne.symm here
      simp only [apart, apart']
      exact ih

section
variable {α : Type} {p : Part α} {r : Record} {x : α}

theorem readEntries_entries (known : ∀ e ∈ r, p.attributes.any (·.name == e.1) = true)
    (accepted : (Part.readAttributes (entries r) p.attributes).map (· p.blank) = .ok x) :
    p.readEntries (entries r) = .ok x := by
  obtain ⟨change, read, rfl⟩ := map_eq_ok.1 accepted
  have nothing : p.unknown (entries r) = [] := by
    refine List.filterMap_eq_nil_iff.2 fun e member => ?_
    obtain ⟨e, inside, rfl⟩ := List.mem_map.1 member
    exact if_pos (known e inside)
  rw [Part.readEntries, read, nothing]
  rfl

theorem ofRecord_of_readEntries (accepted : p.readEntries (entries r) = .ok x) :
    p.ofRecord r = .ok x := by
  show (p.readEntries (entries r)).mapError _ = _
  rw [accepted]
  rfl

theorem accept_of_readEntries (accepted : p.readEntries (entries r) = .ok x) :
    p.accept (.ofRecord r) = .ok x :=
  accepted

end

/-! ## What reading changes -/

theorem both_eq_ok {α β γ : Type} {f : α → β → γ} {x : Except (List Fault) α}
    {y : Except (List Fault) β} {c : γ} :
    both f x y = .ok c ↔ ∃ a b, x = .ok a ∧ y = .ok b ∧ f a b = c := by
  cases x <;> cases y <;> simp [both]

theorem readAttributes_of_read {α : Type} {p : Part α} {es : Entries} {x : α}
    (done : p.read es = .ok x) :
    ∃ change, Part.readAttributes es p.attributes = .ok change ∧ change p.blank = x := by
  rw [Part.read, mapError_eq_ok, Part.readEntries] at done
  split at done
  · rename_i change accepted
    split at done
    · exact ⟨change, accepted, Except.ok.inj done⟩
    · cases done
  · cases done

private theorem readAttribute_keeps {α : Type} {P : α → Prop} {es : Entries} {a : Attribute α}
    (keeps : ∀ v, Value.find? es a.name = some v → ∀ change, a.accept v = .ok change →
      ∀ x, P x → P (change x))
    {change : α → α} (done : Part.readAttribute es a = .ok change) {x : α} (holds : P x) :
    P (change x) := by
  rw [Part.readAttribute] at done
  split at done
  · rename_i v found
    rw [under, mapError_eq_ok] at done
    exact keeps v found change done x holds
  · split at done
    · cases done
    · cases done; exact holds

/-- What the change of no attribute of a list spoils still holds when all of them are read. -/
theorem readAttributes_keeps {α : Type} {P : α → Prop} {es : Entries}
    {attributes : List (Attribute α)}
    (keeps : ∀ a ∈ attributes, ∀ v, Value.find? es a.name = some v → ∀ change,
      a.accept v = .ok change → ∀ x, P x → P (change x))
    {change : α → α} (done : Part.readAttributes es attributes = .ok change) {x : α}
    (holds : P x) : P (change x) := by
  induction attributes generalizing change x with
  | nil => cases done; exact holds
  | cons a rest ih =>
    rw [Part.readAttributes, both_eq_ok] at done
    obtain ⟨first, later, firstDone, laterDone, rfl⟩ := done
    refine ih (fun a member => keeps a (List.mem_cons_of_mem _ member)) laterDone ?_
    exact readAttribute_keeps (keeps a List.mem_cons_self) firstDone holds

/-! ## Parts from their own attributes -/

theorem settingsPart_record (s : EntitySettings) :
    settingsPart.readEntries (entries s.record) = .ok s := by
  refine readEntries_entries ?_ ?_
  · simp [EntitySettings.record, settingsPart, Attribute.optional]
  · simp [EntitySettings.record, settingsPart, Attribute.optional, Part.readAttributes,
      Part.readAttribute, List.lookup_cons, Except.map]

theorem relationPart_record (r : Relation) :
    relationPart.readEntries (entries r.record) = .ok r := by
  refine readEntries_entries ?_ ?_
  · simp [Relation.record, relationPart, Attribute.optional]
  · simp [Relation.record, relationPart, Attribute.optional, Part.readAttributes,
      Part.readAttribute, List.lookup_cons, Except.map]

theorem fieldPart_record {f : Field} (sized : ∀ n ∈ f.length, 1 ≤ n) :
    fieldPart.readEntries (entries f.record) = .ok f := by
  have counted := orNull_count sized
  have precise : orNull (acceptCount 0) (.ofInt? (f.precision.map Int.ofNat)) = .ok f.precision :=
    orNull_count fun n _ => Nat.zero_le n
  have scaled : orNull (acceptCount 0) (.ofInt? (f.scale.map Int.ofNat)) = .ok f.scale :=
    orNull_count fun n _ => Nat.zero_le n
  refine readEntries_entries ?_ ?_
  · simp [Field.record, fieldPart, Attribute.optional]
  · simp [Field.record, fieldPart, Attribute.optional, Part.readAttributes,
      Part.readAttribute, List.lookup_cons, Except.map, counted, precise, scaled]

theorem appPart_record {a : App} (plain : a.fakerMappings = none) :
    appPart.readEntries (entries a.record) = .ok a := by
  have counted : acceptCount 0 (.int a.seedCount) = .ok a.seedCount :=
    acceptCount_of_le (Nat.zero_le _)
  have mapless : orNull (acceptMapping acceptAny) .null = .ok none := rfl
  refine readEntries_entries ?_ ?_
  · simp [App.record, appPart, Attribute.optional]
  · simp [App.record, appPart, Attribute.optional, Part.readAttributes, Part.readAttribute,
      List.lookup_cons, Except.map, counted, plain, mapless]
    rw [← plain]

/-! ## Drafts of texts -/

private theorem piece?_text (s : Option String) :
    piece? (s.map .text) = (Relation.filled? s).map .text := by
  cases s with
  | none => rfl
  | some text =>
    by_cases empty : text = "" <;>
      simp [piece?, Value.given?, Value.isGiven, Relation.filled?, Option.filter_some, empty]

@[simp] theorem piece?_ofText? (s : Option String) :
    piece? (some (.ofText? s)) = piece? (s.map .text) := by
  cases s <;> rfl

private theorem getD_text (given : Option String) (other : String) :
    (given.map Value.text).getD (.text other) = .text (given.getD other) := by
  cases given <;> rfl

private theorem getD_ofText? (given other : Option String) :
    (given.map Value.text).getD (.ofText? other) = .ofText? (given <|> other) := by
  cases given <;> rfl

private theorem orElse_text (given other : Option String) :
    (given.map Value.text <|> other.map Value.text) = (given <|> other).map .text := by
  cases given <;> rfl

private theorem pieceOr_text (given other : Option String) :
    pieceOr (given.map .text) (.ok (.ofText? other)) = .ok (.ofText? (given <|> other)) := by
  cases given <;> rfl

private theorem conventionalKey_text (type : RelationType) (owner target : String)
    (morph : Option String) : conventionalKey type owner target (morph.map .text) =
      .ok (.ofText? (if type.isPolymorphic then morph.map Convention.morphKey
        else some (Convention.foreignKey type owner target))) := by
  unfold conventionalKey
  by_cases polymorphic : type.isPolymorphic = true
  · cases morph <;> simp [polymorphic, Value.ofText?]
  · simp [polymorphic, Value.ofText?]

private theorem conventionalPivot_text (type : RelationType) (owner target : String)
    (morph : Option String) : conventionalPivot type owner target (morph.map .text) =
      .ok (.ofText? (if !type.requiresPivot then none
        else if type.isPolymorphic then morph.map Name.plural
        else some (Convention.pivotTable owner target))) := by
  unfold conventionalPivot
  by_cases pivoted : type.requiresPivot = true
  · by_cases polymorphic : type.isPolymorphic = true
    · cases morph <;> simp [pivoted, polymorphic, Value.ofText?]
    · simp [pivoted, polymorphic, Value.ofText?]
  · simp [pivoted, Value.ofText?]

/-- Filling a draft of texts as values gives the attributes of the relation that it is filled to. -/
private theorem fillValues_text (d : Draft String) (type : RelationType) (owner target : String) :
    fillValues (givenPieces (d.map .text)) type owner target =
      .ok (d.fill type owner target).record := by
  simp only [fillValues, givenPieces, Draft.map, piece?_text, orElse_text, conventionalKey_text,
    conventionalPivot_text, pieceOr_text]
  have null : Value.null = .ofText? none := rfl
  have keyedLocal : Value.text d.defaultLocalKey = .ofText? (some d.defaultLocalKey) := rfl
  simp only [null, keyedLocal, getD_text, getD_ofText?]
  simp [Draft.fill, Relation.record, bind, Except.bind, pure, Except.pure, Value.ofText?]

private theorem ends_text (d : Draft String) {type : RelationType} {owner target : String} :
    (givenPieces (d.map .text)).ends = .ok (type, owner, target) ↔
      d.ends = .ok (type, owner, target) := by
  rw [Draft.ends_eq_ok, Draft.ends_eq_ok]
  rfl

private theorem buildSketch_of_ends {d : Draft String} {type : RelationType}
    {owner target : String} (ends : d.ends = .ok (type, owner, target)) :
    buildSketch (d.map .text) = .ok (d.fill type owner target) := by
  have read := ofRecord_of_readEntries (relationPart_record (d.fill type owner target))
  unfold buildSketch
  simp only [(ends_text d).2 ends, fillValues_text]
  show (relationPart.ofRecord _).mapError _ = _
  rw [read]
  rfl

/-- A draft of texts gives the same relation whether its pieces are known to be texts or not. -/
theorem buildSketch_eq_ok {d : Draft String} {r : Relation} :
    buildSketch (d.map .text) = .ok r ↔ d.build = .ok r := by
  rw [Draft.build_eq_ok]
  constructor
  · intro done
    unfold buildSketch at done
    obtain ⟨⟨type, owner, target⟩, found, -⟩ := bind_eq_ok.1 done
    have ends := (ends_text d).1 (mapError_eq_ok.1 found)
    have same := (buildSketch_of_ends ends).symm.trans done
    exact ⟨type, owner, target, ends, Except.ok.inj same⟩
  · rintro ⟨type, owner, target, ends, rfl⟩
    exact buildSketch_of_ends ends

/-- A draft of texts that gives no relation lacks an end; its pieces are never refused. -/
theorem exists_of_buildSketch_error {d : Draft String} {f : SketchFault}
    (failed : buildSketch (d.map .text) = .error f) : ∃ f', f = .unset f' := by
  cases found : (givenPieces (d.map .text)).ends with
  | error f' =>
    unfold buildSketch at failed
    dsimp only at failed
    rw [found] at failed
    exact ⟨f', (Except.error.inj failed).symm⟩
  | ok ends =>
    obtain ⟨type, owner, target⟩ := ends
    rw [buildSketch_of_ends ((ends_text d).1 found)] at failed
    cases failed

end EntityGraph.Record
