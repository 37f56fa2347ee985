import EntityGraph.Record.Accept

/-!
Parts with named attributes. A part lists its attributes in order, each with the acceptor of its
values. `Part.read` builds a part from entries and reports every fault, first those of the
attributes, then the entries that are none; `Part.assign` changes one attribute.
-/
namespace EntityGraph.Record

/-- An attribute of a part of type `α`: a value that is accepted changes the part. -/
structure Attribute (α : Type) where
  name : String
  required : Bool
  accept : Acceptor (α → α)

/-- An attribute whose values an acceptor takes. -/
def Attribute.optional {α β : Type} (name : String) (accept : Acceptor β) (set : β → α → α) :
    Attribute α :=
  ⟨name, false, fun v => (accept v).map set⟩

/-- An attribute that has to be there. -/
def Attribute.mandatory {α β : Type} (name : String) (accept : Acceptor β) (set : β → α → α) :
    Attribute α :=
  ⟨name, true, fun v => (accept v).map set⟩

/-- A kind of part. -/
structure Part (α : Type) where
  title : String
  /-- The part without any entry. -/
  blank : α
  attributes : List (Attribute α)
  /-- Names that can be asked for and not set. -/
  derived : List String
  /-- Whether the part cannot be changed. -/
  fixed : Bool

namespace Part

variable {α : Type}

/-- The change that the entries make through one attribute. -/
def readAttribute (es : Entries) (a : Attribute α) : Except (List Fault) (α → α) :=
  match Value.find? es a.name with
  | some v => under (.name a.name) (a.accept v)
  | none => if a.required then .error [⟨[.name a.name], .missing⟩] else .ok id

/-- The change that the entries make through all attributes. -/
def readAttributes (es : Entries) : List (Attribute α) → Except (List Fault) (α → α)
  | [] => .ok id
  | a :: rest => both (fun f g x => g (f x)) (readAttribute es a) (readAttributes es rest)

/-- The faults of the entries that are no attributes. -/
def unknown (p : Part α) (es : Entries) : List Fault :=
  es.filterMap fun (k, _) =>
    let name := k.toText
    if p.attributes.any (·.name == name) then none else some ⟨[.name name], .unknownAttribute⟩

/-- Builds a part from entries. -/
def readEntries (p : Part α) (es : Entries) : Except (List Fault) α :=
  let rest := p.unknown es
  match readAttributes es p.attributes with
  | .ok change => if rest.isEmpty then .ok (change p.blank) else .error rest
  | .error faults => .error (faults ++ rest)

/-- Builds a part from entries, and names the kind of part that fails. -/
def read (p : Part α) (es : Entries) : Except Invalid α :=
  (p.readEntries es).mapError fun faults => ⟨p.title, faults⟩

/-- Builds a part from a record. -/
def ofRecord (p : Part α) (r : Record) : Except Invalid α :=
  p.read (r.map fun (k, v) => (.text k, v))

/-- Takes a mapping as a part. -/
def accept (p : Part α) : Acceptor α := fun v =>
  match v.plain with
  | .mapping es => p.readEntries es
  | _ => refuse .recordType

end Part

/-- Why an attribute could not be set. -/
inductive AssignFault where
  | invalid (i : Invalid)
  /-- The name stands for something derived. -/
  | derived (name : String)
  deriving DecidableEq, Repr

/-- Sets an attribute of a part. Names that begin with an underscore are private and change nothing
    that can be seen. -/
def Part.assign {α : Type} (p : Part α) (name : String) (v : Value) (x : α) :
    Except AssignFault α :=
  let fault (kind : FaultKind) : Except AssignFault α :=
    .error (.invalid ⟨p.title, [⟨[.name name], kind⟩]⟩)
  if name.toList.head? == some '_' then .ok x
  else if p.fixed then fault .frozen
  else if p.derived.contains name then .error (.derived name)
  else match p.attributes.find? (·.name == name) with
    | none => fault .noSuchAttribute
    | some a => match under (.name name) (a.accept v) with
      | .ok change => .ok (change x)
      | .error faults => .error (.invalid ⟨p.title, faults⟩)

end EntityGraph.Record
