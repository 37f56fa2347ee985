import EntityGraph.Decimal.Numeral
import EntityGraph.Graph.Record
import EntityGraph.Record.Fault
import EntityGraph.Text.Utf

/-!
Acceptance of values. An acceptor takes the values that stand for something of a type: a flag may be
written as a number or a word, a whole number as a text or a number without a fraction, a text as
its UTF-8 bytes.
-/
namespace EntityGraph.Record

/-- Takes a value as something of a type, or says what is wrong with it. -/
abbrev Acceptor (α : Type) := Value → Except (List Fault) α

/-- A fault of the value itself. -/
def refuse {α : Type} (kind : FaultKind) : Except (List Fault) α :=
  .error [⟨[], kind⟩]

/-- Faults seen from one step further out. -/
def under {α : Type} (step : Step) (r : Except (List Fault) α) : Except (List Fault) α :=
  r.mapError (·.map (Fault.under step))

/-! ## Single values -/

/-- Takes a text. -/
def acceptText : Acceptor String
  | .text s => .ok s
  | .bytes bs => match Text.utf8? bs with
    | some cs => .ok (String.ofList cs)
    | none => refuse .textEncoding
  | _ => refuse .textType

/-- Refuses a text with halves of surrogate pairs. -/
def wholeCharacters (s : String) : Except (List Fault) String :=
  if Text.hasHalf s then refuse .textEncoding else .ok s

/-- Takes a text that is not empty. -/
def acceptFilledText : Acceptor String := fun v => do
  let s ← wholeCharacters (← acceptText v)
  if s.isEmpty then refuse .textTooShort else .ok s

/-- The flag that a word stands for, in any case. -/
def flagWord? (s : String) : Option Bool :=
  let word := String.ofList (s.toList.map Char.toLower)
  if ["0", "f", "n", "no", "false", "off"].contains word then some false
  else if ["1", "t", "y", "yes", "true", "on"].contains word then some true
  else none

/-- Takes a word as a flag. -/
def flagOfWord (s : String) : Except (List Fault) Bool :=
  match flagWord? s with
  | some b => .ok b
  | none => refuse .flagText

/-- Takes one and zero as flags. -/
def flagOfInt (n : Int) : Except (List Fault) Bool :=
  if n = 0 then .ok false else if n = 1 then .ok true else refuse .flagText

/-- The bound of whole numbers that fit a machine word with a sign. -/
def wordBound : Int := 9223372036854775808

/-- Whether a whole number fits a machine word with a sign. -/
def fitsWord (n : Int) : Bool :=
  -wordBound ≤ n && n < wordBound

/-- Takes a flag: a truth value, one or zero, or a word. -/
def acceptFlag : Acceptor Bool
  | .bool b => .ok b
  | .text s => do flagOfWord (← wholeCharacters s)
  | .bytes bs => match Text.utf8? bs with
    | some cs => flagOfWord (String.ofList cs)
    | none => refuse .flagText
  | .int n => if fitsWord n then flagOfInt n else refuse .flagType
  | .float x => match Decimal.toInt? x with
    | some n => if -wordBound < n && n < wordBound then flagOfInt n else refuse .flagType
    | none => refuse .flagType
  | _ => refuse .flagType

/-- Takes the text of a whole number. -/
def wholeOfText (s : String) : Except (List Fault) Int :=
  match Decimal.ofNumeral s with
  | .ok n => .ok n
  | .error .malformed => refuse .wholeText
  | .error .tooLong => refuse .wholeSize

/-- Takes a whole number: a number without a fraction, a truth value, or a text. -/
def acceptWhole : Acceptor Int
  | .int n => .ok n
  | .bool b => .ok (if b then 1 else 0)
  | .text s => do wholeOfText (← wholeCharacters s)
  | .bytes bs => match Text.utf8? bs with
    | some cs => wholeOfText (String.ofList cs)
    | none => refuse .wholeText
  | .float x =>
    if !Decimal.isFinite x then refuse .finiteNumber
    else match Decimal.toInt? x with
      | none => refuse .wholeFraction
      | some n => if -wordBound < n && n < wordBound then .ok n else refuse .wholeSize
  | _ => refuse .wholeType

/-- Takes a whole number of at least `least`. -/
def acceptCount (least : Nat) : Acceptor Nat := fun v => do
  let n ← acceptWhole v
  if n < least then refuse .belowLeast else .ok n.toNat

/-- Takes a member of a catalogue by its spelling. -/
def acceptMember {α : Type} (ofLabel? : String → Option α) : Acceptor α := fun v =>
  match acceptText v with
  | .ok s => do match ofLabel? (← wholeCharacters s) with
    | some a => .ok a
    | none => refuse .member
  | .error _ => refuse .member

/-- Takes null as nothing. -/
def orNull {α : Type} (accept : Acceptor α) : Acceptor (Option α)
  | .null => .ok none
  | v => (accept v).map some

/-- Takes every value. -/
def acceptAny : Acceptor Value := .ok

/-! ## Collections -/

/-- Combines two results, the faults of both if both have some. -/
def both {α β γ : Type} (f : α → β → γ) (a : Except (List Fault) α) (b : Except (List Fault) β) :
    Except (List Fault) γ :=
  match a, b with
  | .ok a, .ok b => .ok (f a b)
  | .ok _, .error e => .error e
  | .error e, .ok _ => .error e
  | .error e, .error e' => .error (e ++ e')

/-- Takes the members of a list one by one, from a number on. -/
def acceptMembers {α : Type} (accept : Acceptor α) : Nat → List Value → Except (List Fault) (List α)
  | _, [] => .ok []
  | n, v :: rest => both List.cons (under (.index n) (accept v)) (acceptMembers accept (n + 1) rest)

/-- Takes a list. -/
def acceptList {α : Type} (accept : Acceptor α) : Acceptor (List α) := fun v =>
  match v.plain with
  | .list xs => acceptMembers accept 0 xs
  | .set xs => acceptMembers accept 0 xs
  | .pair a b => acceptMembers accept 0 [a, b]
  | _ => refuse .listType

/-- The step to the member of a key. -/
def keyStep : Value → Step
  | .text s => .name s
  | .int n => if fitsWord n then .index n else .name (toString n)
  | .bool b => .index (if b then 1 else 0)
  | v => .name v.display

/-- Takes the entries of a mapping one by one. -/
def acceptEntries {α : Type} (accept : Acceptor α) :
    Entries → Except (List Fault) (List (String × α))
  | [] => .ok []
  | (k, v) :: rest =>
    let key := under (keyStep k) (under (.name "[key]") (acceptText k))
    both List.cons (both Prod.mk key (under (keyStep k) (accept v))) (acceptEntries accept rest)

/-- Adds a named thing; one that is there already keeps its place. -/
def putNamed {α : Type} : List (String × α) → String × α → List (String × α)
  | [], e => [e]
  | old :: rest, e => if old.1 = e.1 then e :: rest else old :: putNamed rest e

/-- Takes a mapping with texts as keys. -/
def acceptMapping {α : Type} (accept : Acceptor α) : Acceptor (List (String × α)) := fun v =>
  match v.plain with
  | .mapping es => (acceptEntries accept es).map (·.foldl putNamed [])
  | _ => refuse .mappingType

theorem under_ok {α : Type} (step : Step) (a : α) : under step (.ok a) = .ok a := rfl

theorem both_ok {α β γ : Type} (f : α → β → γ) (a : α) (b : β) :
    both f (.ok a) (.ok b) = .ok (f a b) := rfl

theorem acceptMembers_text (xs : List String) (n : Nat) :
    acceptMembers acceptText n (xs.map .text) = .ok xs := by
  induction xs generalizing n with
  | nil => rfl
  | cons x rest ih =>
    rw [List.map_cons, acceptMembers, ih, acceptText, under_ok, both_ok]

end EntityGraph.Record
