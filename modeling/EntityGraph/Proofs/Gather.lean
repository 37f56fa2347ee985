import EntityGraph.Graph.Check

/-!
Lists that grow by what they lack. A check adds a relation unless there is one like it, and a field
unless there is one of its name; here is what this comes to when it is done again and again. Which
members are added follows from the list at the beginning and from all that is asked for: of each key
that is not there the first one, and no other.
-/
namespace EntityGraph.Check

/-! ## Members with keys -/

section
variable {α κ : Type} [BEq κ] (key : α → κ)

/-- A list with further members behind it, each unless there is one of its key already. -/
def gather (xs : List α) : List α → List α
  | [] => xs
  | y :: ys => if xs.any (key · == key y) then gather xs ys else gather (xs ++ [y]) ys

/-- The members that a list lacks: the first ones of the keys that are not there. -/
structure Lacked (xs ys gained : List α) : Prop where
  among : ∀ y ∈ gained, y ∈ ys
  filter : ∀ k, gained.filter (key · == k) =
    if xs.any (key · == k) then [] else (ys.find? (key · == k)).toList

theorem gather_append (xs ys zs : List α) :
    gather key xs (ys ++ zs) = gather key (gather key xs ys) zs := by
  induction ys generalizing xs with
  | nil => rfl
  | cons y rest ih =>
    rw [List.cons_append, gather, gather]
    split <;> exact ih _

/-- What is gathered is what was lacking. -/
theorem exists_lacked [LawfulBEq κ] (xs ys : List α) :
    ∃ gained, gather key xs ys = xs ++ gained ∧ Lacked key xs ys gained := by
  induction ys generalizing xs with
  | nil => exact ⟨[], by simp [gather], by simp, by simp⟩
  | cons y rest ih =>
    rw [gather]
    by_cases present : xs.any (key · == key y) = true
    · rw [if_pos present]
      obtain ⟨gained, same, lacked⟩ := ih xs
      refine ⟨gained, same, fun z member => List.mem_cons_of_mem _ (lacked.among z member), ?_⟩
      intro k
      rw [lacked.filter]
      by_cases here : key y = k
      · rw [← here, present, if_pos rfl, if_pos rfl]
      · rw [List.find?_cons_of_neg (by simpa using here)]
    · rw [if_neg present]
      obtain ⟨gained, same, lacked⟩ := ih (xs ++ [y])
      refine ⟨y :: gained, by rw [same, List.append_assoc]; rfl, ?_, ?_⟩
      · intro z member
        rcases List.mem_cons.1 member with rfl | later
        · exact List.mem_cons_self
        · exact List.mem_cons_of_mem _ (lacked.among z later)
      · intro k
        have later := lacked.filter k
        rw [List.any_append, List.any_cons, List.any_nil, Bool.or_false] at later
        by_cases here : key y = k
        · rw [List.filter_cons_of_pos (by simpa using here), later, ← here, if_neg present,
            List.find?_cons_of_pos (by simp), if_pos (by simp)]
          rfl
        · have other : (key y == k) = false := by simpa using here
          rw [List.filter_cons_of_neg (by simpa using here), later, other, Bool.or_false,
            List.find?_cons_of_neg (by simpa using here)]

theorem mem_gather [LawfulBEq κ] {xs ys : List α} {x : α} (member : x ∈ gather key xs ys) :
    x ∈ xs ∨ x ∈ ys := by
  obtain ⟨gained, same, lacked⟩ := exists_lacked key xs ys
  rw [same] at member
  exact (List.mem_append.1 member).imp id (lacked.among x)

end

/-! ## Fields for keys -/

/-- Fields with one for a key that refers to an entity: the first one of that name, or a new one. -/
def claimField (nullable : Bool) (claim : String × String) (fields : List Field) : List Field :=
  if fields.any (·.name == claim.1) then referTo claim.1 claim.2 fields
  else fields ++ [keyField nullable claim.1 claim.2]

/-- Fields with one for each of several keys. -/
def claimFields (nullable : Bool) (fields : List Field) : List (String × String) → List Field
  | [] => fields
  | claim :: rest => claimFields nullable (claimField nullable claim fields) rest

/-- Fields in which the first one of a name refers to the entity of the first claim to that name,
    unless it refers to one already. -/
def referFirst (claims : List (String × String)) : List Field → List Field
  | [] => []
  | f :: rest =>
    { f with belongsTo := f.belongsTo <|> claims.lookup f.name } ::
      referFirst (claims.filter (·.1 != f.name)) rest

theorem withKeyField_fields (nullable : Bool) (key target : String) (e : Entity) :
    (withKeyField nullable key target e).fields = claimField nullable (key, target) e.fields := by
  rw [withKeyField, claimField, Entity.hasField]
  split <;> rfl

theorem claimFields_append (nullable : Bool) (fields : List Field)
    (claims claims' : List (String × String)) :
    claimFields nullable fields (claims ++ claims') =
      claimFields nullable (claimFields nullable fields claims) claims' := by
  induction claims generalizing fields with
  | nil => rfl
  | cons claim rest ih => exact ih _

private theorem referFirst_nil (fields : List Field) : referFirst [] fields = fields := by
  induction fields with
  | nil => rfl
  | cons f rest ih =>
    rw [referFirst, List.filter_nil, ih]
    cases refers : f.belongsTo <;> simp [← refers]

private theorem any_referTo (key target : String) (fields : List Field) (name : String) :
    (referTo key target fields).any (·.name == name) = fields.any (·.name == name) := by
  induction fields with
  | nil => rfl
  | cons f rest ih =>
    rw [referTo]
    split
    · split <;> rfl
    · rw [List.any_cons, List.any_cons, ih]

private theorem referTo_of_absent {key : String} (target : String) {fields : List Field}
    (absent : fields.any (·.name == key) = false) : referTo key target fields = fields := by
  induction fields with
  | nil => rfl
  | cons f rest ih =>
    rw [List.any_cons, Bool.or_eq_false_iff] at absent
    rw [referTo, if_neg (by simpa using absent.1), ih absent.2]

/-- The first claim to a name can be met before the others. -/
private theorem referFirst_cons (key target : String) (claims : List (String × String))
    (fields : List Field) :
    referFirst ((key, target) :: claims) fields =
      referFirst claims (referTo key target fields) := by
  induction fields generalizing claims with
  | nil => rfl
  | cons f rest ih =>
    rw [referFirst, referTo]
    by_cases here : f.name = key
    · subst here
      rw [if_pos rfl, List.filter_cons_of_neg (by simp), List.lookup_cons_self]
      cases refers : f.belongsTo <;> simp [referFirst, refers]
    · have apart : (f.name == key) = false := by simpa using here
      rw [if_neg here, List.filter_cons_of_pos (by simpa using Ne.symm here), List.lookup_cons,
        apart, ih, referFirst]

/-- A field that refers to an entity behind the others takes nothing from them. -/
private theorem referFirst_append {last : Field} (refers : last.belongsTo ≠ none)
    (claims : List (String × String)) (fields : List Field) :
    referFirst claims (fields ++ [last]) = referFirst claims fields ++ [last] := by
  induction fields generalizing claims with
  | nil =>
    obtain ⟨target, same⟩ := Option.ne_none_iff_exists'.1 refers
    have stays : (last.belongsTo <|> claims.lookup last.name) = last.belongsTo := by
      rw [same]
      rfl
    show [{ last with belongsTo := last.belongsTo <|> claims.lookup last.name }] = [last]
    rw [stays]
  | cons f rest ih => rw [List.cons_append, referFirst, ih, referFirst, List.cons_append]

/-- Fields that are there learn what they refer to, and those that are not are added. -/
theorem exists_claimFields (nullable : Bool) (fields : List Field)
    (claims : List (String × String)) :
    ∃ gained, claimFields nullable fields claims = referFirst claims fields ++ gained ∧
      ∀ k, gained.filter (·.name == k) = if fields.any (·.name == k) then []
        else ((claims.lookup k).map (keyField nullable k)).toList := by
  induction claims generalizing fields with
  | nil => exact ⟨[], by simp [claimFields, referFirst_nil], by simp⟩
  | cons claim rest ih =>
    obtain ⟨key, target⟩ := claim
    rw [claimFields, claimField]
    by_cases present : fields.any (·.name == key) = true
    · rw [if_pos present]
      obtain ⟨gained, same, filters⟩ := ih (referTo key target fields)
      refine ⟨gained, by rw [same, referFirst_cons], fun k => ?_⟩
      rw [filters, any_referTo]
      by_cases here : k = key
      · subst here
        rw [present, if_pos rfl, if_pos rfl]
      · have apart : (k == key) = false := by simpa using here
        rw [List.lookup_cons, apart]
    · rw [if_neg present]
      obtain ⟨gained, same, filters⟩ := ih (fields ++ [keyField nullable key target])
      refine ⟨keyField nullable key target :: gained, ?_, fun k => ?_⟩
      · have absent : fields.any (·.name == key) = false := by simpa using present
        have refers : (keyField nullable key target).belongsTo ≠ none := Option.some_ne_none _
        rw [same, referFirst_cons, referTo_of_absent target absent, referFirst_append refers,
          List.append_assoc]
        rfl
      · have later := filters k
        rw [List.any_append, List.any_cons, List.any_nil, Bool.or_false] at later
        by_cases here : k = key
        · subst here
          rw [List.filter_cons_of_pos (by simp [keyField]), later, if_neg present,
            List.lookup_cons_self, if_pos (by simp [keyField])]
          rfl
        · have apart : (k == key) = false := by simpa using here
          have apart' : ((keyField nullable key target).name == k) = false := by
            simpa [keyField] using Ne.symm here
          rw [List.filter_cons_of_neg (by simpa using apart'), later, apart', Bool.or_false,
            List.lookup_cons, apart]

end EntityGraph.Check
