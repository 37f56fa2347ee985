import EntityGraph.Yaml.Node
import EntityGraph.Yaml.Value

/-!
The value of a document. It is read level by level: a collection is read when all collections above
it have been, so of several faults the one that is less deep counts, and of those on one level the
first. A mapping takes in what it merges when it is read, and its key `=` becomes a text then;
whoever refers to them later finds them changed.
-/
namespace EntityGraph.Yaml

/-- What reading has changed so far: the mappings that have taken in what they merge, and the keys
    that stood for the value of their mapping and are texts now. -/
structure Progress where
  merged : List Nat := []
  renamed : List Nat := []

/-- The type of a node by now. -/
def Progress.tag (p : Progress) (n : Node) : Tag :=
  if n.tag == .value && p.renamed.contains n.number then .text else n.tag

/-! ## Merging -/

/-- The entries of a mapping with those that it merges, and the mappings that take part. -/
structure Merge where
  entries : List (Node × Node) := []
  mappings : List Nat := []

namespace Document

/-- What a node gives that is merged: a mapping its entries, a sequence of mappings those of each,
    the last one first. -/
def broughtIn? (d : Document) (merge? : Node → Option Merge) (n : Node) : Option Merge :=
  match d.target n with
  | .sequence _ _ ns => do
    let ms ← ns.mapM fun n => merge? (d.target n)
    return ⟨ms.reverse.flatMap Merge.entries, ms.flatMap Merge.mappings⟩
  | n => merge? n

/-- The entries of a mapping behind those that it merges. A mapping inside which it is merged gives
    its own entries. -/
def merge? (d : Document) : (fuel : Nat) → (around : List Nat) → Node → Option Merge
  | 0, _, _ => none
  | fuel + 1, around, .mapping number _ es => do
    let isMerge (e : Node × Node) := (d.target e.1).tag == .merge
    let own := es.filter fun e => !isMerge e
    if around.contains number then return { entries := own }
    let ms ← (es.filter isMerge).mapM fun e =>
      d.broughtIn? (d.merge? fuel (number :: around)) e.2
    return ⟨ms.flatMap Merge.entries ++ own, number :: ms.flatMap Merge.mappings⟩
  | _, _, _ => none

/-- The entries of a mapping after merging. -/
def mergedEntries? (d : Document) (n : Node) : Option Merge :=
  d.merge? (d.count + 1) [] n

/-- The entries of a mapping by now. -/
def entriesNow (d : Document) (p : Progress) (n : Node) : List (Node × Node) :=
  match n with
  | .mapping number _ es =>
    if p.merged.contains number then (d.mergedEntries? n).elim es Merge.entries else es
  | _ => []

/-- Merges, and makes texts of the keys that stand for the value of their mapping. -/
def settle (d : Document) (p : Progress) (n : Node) :
    Except Fault (List (Node × Node) × Progress) :=
  match d.mergedEntries? n with
  | none => .error .malformed
  | some m =>
    let keys := (m.entries.map fun e => d.target e.1).filter fun k => k.tag == .value
    .ok (m.entries, ⟨m.mappings ++ p.merged, keys.map Node.number ++ p.renamed⟩)

/-! ## Scalars -/

/-- The text of a node: that of a scalar, or of what the key `=` of a mapping stands for. A mapping
    that stands for itself has too many levels. -/
def text (d : Document) (p : Progress) : (fuel : Nat) → Node → Except Fault String
  | 0, _ => .error .tooDeep
  | fuel + 1, n =>
    match d.target n with
    | .scalar _ _ s => .ok s
    | .mapping _ _ es =>
      match es.find? fun e => p.tag (d.target e.1) == .value with
      | some e => d.text p fuel e.2
      | none => .error .malformed
    | _ => .error .malformed

/-- The value of a node that is typed as a scalar. -/
def scalarAt (d : Document) (p : Progress) (n : Node) : Except Fault Value := do
  let s ← d.text p (d.count + 1) n
  match p.tag n, n with
  | .timestamp, .mapping .. => throw .noMomentText
  | tag, _ => scalarValue tag s

end Document

/-! ## Collections -/

/-- A collection to be read, with the numbers of those around it. One that is among them is met
    again in itself. -/
structure Pending where
  node : Node
  around : List Nat

/-- How often a collection stands around itself. -/
def Pending.depth (q : Pending) : Nat :=
  q.around.count q.node.number

/-- A place in a collection: a value, or a collection that is read on the next level. -/
inductive Slot where
  | known (v : Value)
  | pending (q : Pending)

/-- A collection whose parts are read as far as they are no collections. -/
inductive Outline where
  | list (items : List Slot)
  | pairs (items : List (Slot × Slot))
  | mapping (entries : List (Value × Slot))
  | set (entries : List (Value × Slot))

/-- What stands where a collection is met in itself so often that nobody looks further. -/
def cutOff (n : Node) : Value :=
  match n with
  | .mapping .. => .again (.mapping [])
  | _ => .again (.list [])

/-- Reads a part of a collection. -/
def slot (d : Document) (p : Progress) (around : List Nat) (n : Node) : Except Fault Slot :=
  let n := d.target n
  match p.tag n with
  | .sequence | .mapping | .set | .pairs =>
    let q : Pending := ⟨n, around⟩
    .ok (if q.depth < 3 then .pending q else .known (cutOff n))
  | _ => (d.scalarAt p n).map .known

/-- Reads the entries of a mapping. No key is a collection. -/
def entrySlots (d : Document) (p : Progress) (around : List Nat) (es : List (Node × Node)) :
    Except Fault (List (Value × Slot)) :=
  es.mapM fun (k, v) => do
    match ← slot d p around k with
    | .pending _ => throw .malformed
    | .known key => return (key, ← slot d p around v)

/-- Reads the one entry of a mapping. -/
def pairSlots (d : Document) (p : Progress) (around : List Nat) (n : Node) :
    Except Fault (Slot × Slot) :=
  match d.entriesNow p (d.target n) with
  | [(k, v)] => return (← slot d p around k, ← slot d p around v)
  | _ => .error .malformed

/-- Reads the parts of a collection. -/
def outline (d : Document) (p : Progress) (q : Pending) : Except Fault (Outline × Progress) := do
  let around := q.node.number :: q.around
  match p.tag q.node, q.node with
  | .sequence, .sequence _ _ ns => return (.list (← ns.mapM (slot d p around)), p)
  | .pairs, .sequence _ _ ns => return (.pairs (← ns.mapM (pairSlots d p around)), p)
  | .mapping, .mapping .. =>
    let (es, p) ← d.settle p q.node
    return (.mapping (← entrySlots d p around es), p)
  | .set, .mapping .. =>
    let (es, p) ← d.settle p q.node
    return (.set (← entrySlots d p around es), p)
  | _, _ => throw .malformed

/-- Reads the collections of a level. -/
def outlines (d : Document) : Progress → List Pending → Except Fault (List Outline × Progress)
  | p, [] => .ok ([], p)
  | p, q :: rest => do
    let (o, p) ← outline d p q
    let (os, p) ← outlines d p rest
    return (o :: os, p)

/-! ## Levels -/

/-- The collections that are still to be read. -/
def Slot.pendings : Slot → List Pending
  | known _ => []
  | pending q => [q]

/-- The collections in a collection that are still to be read. -/
def Outline.pendings : Outline → List Pending
  | list items => items.flatMap Slot.pendings
  | pairs items => items.flatMap fun (a, b) => a.pendings ++ b.pendings
  | mapping entries | set entries => entries.flatMap fun (_, s) => s.pendings

/-- Puts the next value into a place that waits for one. -/
def Slot.fill : Slot → StateM (List Value) Value
  | known v => return v
  | pending _ => modifyGet fun vs => (vs.headD .null, vs.tail)

/-- Distinct values in the order of a set: whole numbers in ascending order, anything else as it
    comes. -/
def inSetOrder (xs : List Value) : List Value :=
  match xs.mapM fun x => x.asNumber?.map fun n => (n, x) with
  | some ns => (ns.mergeSort fun a b => a.1 ≤ b.1).map Prod.snd
  | none => xs

/-- Puts the values of its collections into a collection. -/
def Outline.fill : Outline → StateM (List Value) Value
  | list items => return .list (← items.mapM Slot.fill)
  | pairs items => return .list (← items.mapM fun (a, b) => return .pair (← a.fill) (← b.fill))
  | mapping entries => return .mapping (distinct (← filled entries))
  | set entries => return .set (inSetOrder ((distinct (← filled entries)).map Prod.fst))
where
  filled (entries : List (Value × Slot)) : StateM (List Value) Entries :=
    entries.mapM fun (k, s) => return (k, ← s.fill)
  distinct (entries : Entries) : Entries :=
    entries.foldl (fun es (k, v) => Value.putEntry es k v) []

/-- Marks a value that is met again in itself. -/
def Pending.mark (q : Pending) (v : Value) : Value :=
  if q.depth = 0 then v else .again v

/-- Reads the collections of a level and of the levels below. -/
def valuesOf (d : Document) : (fuel : Nat) → Progress → List Pending → Except Fault (List Value)
  | _, _, [] => .ok []
  | 0, _, _ => .error .malformed
  | fuel + 1, p, qs => do
    let (os, p) ← outlines d p qs
    let below ← valuesOf d fuel p (os.flatMap Outline.pendings)
    let (vs, _) := (os.mapM Outline.fill).run below
    return List.zipWith Pending.mark qs vs

/-- The value of a document. -/
def Document.value (d : Document) : Except Fault Value := do
  match ← slot d {} [] d.root with
  | .known v => return v
  | .pending q => return (← valuesOf d (3 * d.count + 3) {} [q]).headD .null

/-- The value of a text; null if it holds no document. -/
def valueOf (cs : List Char) : Except Fault Value := do
  match ← documentOf cs with
  | none => return .null
  | some d => d.value

end EntityGraph.Yaml
