import EntityGraph.Graph.Dump
import EntityGraph.Proofs.Results

/-!
Dumps of graphs. The portable form of a part is written like the part itself, only that the values
of any kind in it are portable; taking a portable form twice changes nothing more.
-/
namespace EntityGraph

/-! ## Values -/

namespace Value

@[simp] theorem portable_text (s : String) : (text s).portable = text s := by
  rw [portable]

@[simp] theorem portable_bool (b : Bool) : (bool b).portable = bool b := by
  rw [portable]

@[simp] theorem portable_int (n : Int) : (int n).portable = int n := by
  rw [portable]

@[simp] theorem portable_null : null.portable = null := by
  rw [portable]

@[simp] theorem portable_ofText? (s : Option String) : (ofText? s).portable = ofText? s := by
  cases s <;> simp [ofText?]

@[simp] theorem portable_ofInt? (n : Option Int) : (ofInt? n).portable = ofInt? n := by
  cases n <;> simp [ofInt?]

theorem portableAll_eq_map (vs : List Value) : portableAll vs = vs.map portable := by
  induction vs with
  | nil => rw [portableAll, List.map_nil]
  | cons v rest ih => rw [portableAll, ih, List.map_cons]

@[simp] theorem portable_list (vs : List Value) : (list vs).portable = list (vs.map portable) := by
  rw [portable, portableAll_eq_map]

@[simp] theorem portable_ofTexts (xs : List String) : (ofTexts xs).portable = ofTexts xs := by
  simp [ofTexts, Function.comp_def]

/-- The portable form of a record has the same keys. -/
theorem portable_ofRecord (r : Record) :
    (ofRecord r).portable = ofRecord (r.map fun (k, v) => (k, v.portable)) := by
  have each : ∀ r : Record, portableEntries (r.map fun (k, v) => (text k, v)) =
      (r.map fun (k, v) => (k, v.portable)).map fun (k, v) => (text k, v) := by
    intro r
    induction r with
    | nil => rw [List.map_nil, portableEntries, List.map_nil, List.map_nil]
    | cons e rest ih =>
      rw [List.map_cons, portableEntries, ih, keyText]
      rfl
  rw [ofRecord, portable, each, ofRecord]

mutual

theorem portable_portable (v : Value) : v.portable.portable = v.portable := by
  cases v with
  | null | bool | int | text | bytes | date | moment => simp [portable]
  | float x =>
    rw [portable]
    by_cases finite : Decimal.isFinite x = true <;> simp [portable, finite]
  | list xs => rw [portable, portable, portableAll_portableAll xs]
  | set xs => rw [portable, portable, portableAll_portableAll xs]
  | pair a b => simp [portable, portable_portable a, portable_portable b]
  | mapping es => rw [portable, portable, portableEntries_portableEntries es]
  | again v => rw [portable, portable_portable v]

theorem portableAll_portableAll (vs : List Value) :
    portableAll (portableAll vs) = portableAll vs := by
  cases vs with
  | nil => simp [portableAll]
  | cons v rest => simp [portableAll, portable_portable v, portableAll_portableAll rest]

theorem portableEntries_portableEntries (es : List (Value × Value)) :
    portableEntries (portableEntries es) = portableEntries es := by
  match es with
  | [] => simp [portableEntries]
  | (k, v) :: rest =>
    simp [portableEntries, keyText, portable_portable v, portableEntries_portableEntries rest]

end

end Value

/-! ## Parts -/

/-- A record with the portable forms of its values. -/
def Record.portable (r : Record) : Record :=
  r.map fun (k, v) => (k, v.portable)

/-- The metadata with the portable forms of what is made up. -/
def App.portable (a : App) : App :=
  { a with fakerMappings := a.fakerMappings.map Record.portable }

/-- A field with the portable form of its default. -/
def Field.portable (f : Field) : Field :=
  { f with default := f.default.portable }

/-- An entity with the portable forms of the defaults of its fields. -/
def Entity.portable (e : Entity) : Entity :=
  { e with fields := e.fields.map Field.portable }

/-- A graph with the portable forms of all values of any kind in it. -/
def Graph.portable (g : Graph) : Graph :=
  { g with app := g.app.portable, store := g.store.map Entity.portable }

@[simp] theorem Graph.app_portable (g : Graph) : g.portable.app = g.app.portable := rfl

@[simp] theorem Graph.enums_portable (g : Graph) : g.portable.enums = g.enums := rfl

@[simp] theorem Graph.entities_portable (g : Graph) :
    g.portable.entities = g.entities.map Entity.portable := by
  simp only [entities, portable, List.map_filterMap, List.getElem?_map]

namespace Value

theorem portable_app (a : App) : (ofRecord a.record).portable = ofRecord a.portable.record := by
  rw [portable_ofRecord]
  cases mapped : a.fakerMappings <;>
    simp [App.record, App.portable, mapped, portable_ofRecord, Record.portable]

theorem portable_field (f : Field) : (ofRecord f.record).portable = ofRecord f.portable.record := by
  rw [portable_ofRecord]
  simp [Field.record, Field.portable]

theorem portable_relation (r : Relation) : (ofRecord r.record).portable = ofRecord r.record := by
  rw [portable_ofRecord]
  simp [Relation.record]

theorem portable_settings (s : EntitySettings) :
    (ofRecord s.record).portable = ofRecord s.record := by
  rw [portable_ofRecord]
  simp [EntitySettings.record]

theorem portable_enum (e : EnumDefinition) : (ofRecord e.record).portable = ofRecord e.record := by
  rw [portable_ofRecord]
  simp [EnumDefinition.record]

theorem portable_entity (e : Entity) :
    (ofRecord e.record).portable = ofRecord e.portable.record := by
  rw [portable_ofRecord]
  simp [Entity.record, Entity.portable, Entity.tableName, Function.comp_def, portable_field,
    portable_relation, portable_settings]

theorem portable_graph (g : Graph) : (ofRecord g.record).portable = ofRecord g.portable.record := by
  rw [portable_ofRecord]
  simp [Graph.record, Function.comp_def, portable_app, portable_entity, portable_enum]

end Value

theorem Field.portable_portable (f : Field) : f.portable.portable = f.portable := by
  simp [Field.portable, Value.portable_portable]

theorem Entity.portable_portable (e : Entity) : e.portable.portable = e.portable := by
  simp [Entity.portable, Function.comp_def, Field.portable_portable]

theorem Record.portable_portable (r : Record) :
    Record.portable (Record.portable r) = Record.portable r := by
  simp [Record.portable, Value.portable_portable]

theorem App.portable_portable (a : App) : a.portable.portable = a.portable := by
  simp [App.portable, Function.comp_def, Record.portable_portable]

/-! ## Graphs -/

theorem Graph.portable?_eq {g : Graph} (free : Value.checkPortable g.freeValues = .ok ()) :
    g.portable? = .ok (.ofRecord g.portable.record) := by
  rw [portable?, Record.portable?, free, Value.portable_graph]
  rfl

end EntityGraph
