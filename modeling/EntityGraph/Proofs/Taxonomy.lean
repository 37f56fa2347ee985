import EntityGraph.Proofs.Built

/-!
How loading a schema text can fail. Its parts are only ever made of values that they take, so no
part refuses them, and no draft has a piece that is no text. What is left are the problems that
callers are told about, and whole numbers with more digits than a number may have.
-/
namespace EntityGraph

open Results

namespace Schema

/-! ## Arguments -/

/-- The arguments of some directives. -/
def Directives.arguments (ds : Directives) : List String :=
  ds.filterMap Prod.snd

/-- The arguments of the directives of a line. -/
def lineArguments (block : String) (line : Nat × String) : List String :=
  match Declaration.ofLine line.2 line.1 block with
  | .ok d => d.directives.arguments
  | .error _ => []

/-- The arguments of the directives of a block and of its lines. -/
def Block.arguments (b : Block) : List String :=
  b.directives.arguments ++ b.contentLines.flatMap (lineArguments b.name)

/-- The arguments of all directives of a text. -/
def arguments (s : String) : List String :=
  (blocks s).flatMap Block.arguments

/-- An argument that is an optional minus sign and more than 4300 decimal digits. -/
def IsLongNumeral (arg : String) : Prop :=
  ∃ digits, ((Text.trim arg).toList = digits ∨ (Text.trim arg).toList = '-' :: digits) ∧
    (∀ c ∈ digits, Text.isDecimalDigit c = true) ∧ 4300 < digits.length

/-- The faults that reading a text with the given arguments can end with. -/
inductive SchemaFault.Expected (args : List String) : SchemaFault → Prop
  | declaration (f : DeclarationFault) : Expected args (.declaration f)
  | digits {arg : String} (e : Decimal.DigitExcess) (given : arg ∈ args)
      (long : IsLongNumeral arg) : Expected args (.digits e)
  | configRepeated (names : List String) : Expected args (.configRepeated names)
  | configInvalid (name : String) (i : Record.Invalid) : Expected args (.configInvalid name i)
  | enumRepeated (name : String) : Expected args (.enumRepeated name)
  | enumInvalid (name : String) (i : Record.Invalid) : Expected args (.enumInvalid name i)
  | entityRepeated (name : String) : Expected args (.entityRepeated name)
  | notWhole (directive entity field : String) (line : Int) (arg : String) :
      Expected args (.notWhole directive entity field line arg)
  | relation (f : DraftFault Value) : Expected args (.relation (.unset f))

theorem SchemaFault.Expected.mono {args args' : List String} (more : args ⊆ args')
    {f : SchemaFault} (expected : f.Expected args) : f.Expected args' := by
  cases expected with
  | digits e given long => exact .digits e (more given) long
  | declaration | configRepeated | configInvalid | enumRepeated | enumInvalid | entityRepeated
  | notWhole | relation => constructor

theorem mem_arguments_of_lookup {ds : Directives} {name arg : String}
    (found : ds.lookup name = some (some arg)) : arg ∈ ds.arguments := by
  obtain ⟨before, after, rfl, -⟩ := List.lookup_eq_some_iff.1 found
  exact List.mem_filterMap.2 ⟨(name, some arg), by simp, rfl⟩

theorem mem_arguments_of_raw? {ds : Directives} {name arg : String}
    (found : ds.raw? name = some arg) : arg ∈ ds.arguments := by
  rw [Directives.raw?, Option.join_eq_some_iff] at found
  exact mem_arguments_of_lookup found

/-! ## Literals -/

private theorem decimal_of_mapM {cs : List Char} {ds : List Nat}
    (read : cs.mapM Text.digitValue? = some ds) :
    ds.length = cs.length ∧ ∀ c ∈ cs, Text.isDecimalDigit c = true := by
  induction cs generalizing ds with
  | nil =>
    cases read
    simp
  | cons c rest ih =>
    simp only [List.mapM_cons, Option.bind_eq_bind, Option.pure_def, Option.bind_eq_some_iff,
      Option.some.injEq] at read
    obtain ⟨d, value, others, later, rfl⟩ := read
    obtain ⟨same, decimal⟩ := ih later
    refine ⟨by simp [same], ?_⟩
    intro c' member
    rcases List.mem_cons.1 member with rfl | inside
    · simp [Text.isDecimalDigit, value]
    · exact decimal c' inside

private theorem decimal_of_digits? {cs : List Char} {ds : List Nat} (read : digits? cs = some ds) :
    ds.length = cs.length ∧ ∀ c ∈ cs, Text.isDecimalDigit c = true := by
  unfold digits? at read
  split at read
  · cases read
  · exact decimal_of_mapM read

/-- A numeral without a point is its digits, behind a minus sign if it is negative. -/
private theorem whole_of_numeral? {cs : List Char} {n : Numeral} (read : numeral? cs = some n)
    (whole : n.fraction = none) :
    ∃ digits, (cs = digits ∨ cs = '-' :: digits) ∧ digits? digits = some n.whole := by
  have signed : cs = (signOf cs).2 ∨ cs = '-' :: (signOf cs).2 := by
    unfold signOf
    split
    · exact .inr rfl
    · exact .inl rfl
  refine ⟨(signOf cs).2, signed, ?_⟩
  unfold numeral? at read
  dsimp only at read
  generalize signOf cs = p at read
  split at read
  · simp only [Option.bind_eq_bind, Option.pure_def, Option.bind_eq_some_iff,
      Option.some.injEq] at read
    obtain ⟨_, -, _, -, rfl⟩ := read
    cases whole
  · rename_i nothing
    have all : p.2.takeWhile (· != '.') = p.2 := by
      have split := List.takeWhile_append_dropWhile (p := (· != '.')) (l := p.2)
      rwa [nothing, List.append_nil] at split
    simp only [Option.bind_eq_bind, Option.pure_def, Option.bind_eq_some_iff, Option.some.injEq,
      all] at read
    obtain ⟨ds, given, rfl⟩ := read
    exact given

/-- Only a whole number with too many digits is a literal without a value. -/
theorem long_of_literal {s : String} {e : Decimal.DigitExcess} (failed : literal s = .error e) :
    IsLongNumeral s := by
  unfold literal at failed
  dsimp only at failed
  split at failed
  · cases failed
  · split at failed
    · cases failed
    · split at failed
      · cases failed
      · split at failed
        · rename_i n read
          unfold Numeral.value at failed
          split at failed
          · cases failed
          · rename_i whole
            obtain ⟨digits, signed, given⟩ := whole_of_numeral? read whole
            obtain ⟨same, decimal⟩ := decimal_of_digits? given
            refine ⟨digits, signed, decimal, ?_⟩
            by_contra short
            have few : ¬ Decimal.maxDigits < n.whole.length := by
              rw [same]
              exact short
            rw [Decimal.wholeNumber, if_neg few] at failed
            cases failed
        · cases failed

section
variable {args : List String} {dialect : Dialect} {enums : List EnumDefinition}

theorem literalValue_fails {arg : String} (given : arg ∈ args) :
    FailsOnly (SchemaFault.Expected args) (literalValue arg) :=
  FailsOnly.mapError fun e failed => .digits e given (long_of_literal failed)

/-! ## Declarations -/

theorem hintsOf_fails (d : Declaration) :
    FailsOnly (SchemaFault.Expected d.directives.arguments) (hintsOf d) := by
  have each : FailsOnly (fun _ => ∃ arg ∈ d.directives.arguments, IsLongNumeral arg) d.hints := by
    refine FailsOnly.mapM fun directive member => ?_
    obtain ⟨name, arg⟩ := directive
    cases arg with
    | none => exact FailsOnly.ok _
    | some a =>
      refine FailsOnly.map fun e failed => ⟨a, ?_, long_of_literal failed⟩
      exact List.mem_filterMap.2 ⟨(name, some a), member, rfl⟩
  refine FailsOnly.mapError fun e failed => ?_
  obtain ⟨arg, given, long⟩ := each e failed
  exact .digits e given long

theorem wholeArg?_fails (entity : String) (d : Declaration) (directive : String) :
    FailsOnly (SchemaFault.Expected d.directives.arguments) (wholeArg? entity d directive) := by
  unfold wholeArg?
  split
  · exact FailsOnly.ok none
  · rename_i arg found
    refine FailsOnly.bind (literalValue_fails (mem_arguments_of_raw? found)) fun v _ => ?_
    split
    · exact FailsOnly.ok _
    · exact FailsOnly.error (.notWhole ..)

theorem defaultOf_fails (d : Declaration) :
    FailsOnly (SchemaFault.Expected d.directives.arguments) (defaultOf d) := by
  unfold defaultOf
  split
  · exact FailsOnly.ok _
  · rename_i arg found
    exact literalValue_fails (mem_arguments_of_raw? found)

/-- The field of a declaration is never refused. -/
theorem fieldOf_fails (entity : String) (d : Declaration) (enum : Option EnumDefinition) :
    FailsOnly (SchemaFault.Expected d.directives.arguments) (fieldOf dialect entity d enum) := by
  unfold fieldOf
  refine FailsOnly.bind ?_ fun type _ => ?_
  · unfold fieldTypeOf
    split
    · exact FailsOnly.ok _
    · exact FailsOnly.map (hintsOf_fails d)
  refine FailsOnly.bind (defaultOf_fails d) fun default _ => ?_
  refine FailsOnly.bind (wholeArg?_fails entity d "min") fun min _ => ?_
  refine FailsOnly.bind (wholeArg?_fails entity d "max") fun max _ => ?_
  dsimp only
  rw [fieldPart_fieldRecord]
  exact FailsOnly.ok _

theorem memberOf_fails (entity : String) (d : Declaration) :
    FailsOnly (SchemaFault.Expected d.directives.arguments) (memberOf dialect enums entity d) := by
  unfold memberOf
  refine FailsOnly.bind ?_ fun spoken _ => ?_
  · unfold saysRelation
    split
    · exact FailsOnly.ok _
    · exact FailsOnly.bind (hintsOf_fails d) fun hints _ => FailsOnly.ok _
  split
  · exact FailsOnly.ok _
  · split
    · exact FailsOnly.bind (fieldOf_fails entity d none) fun f _ => FailsOnly.ok _
    · split
      · exact FailsOnly.bind (fieldOf_fails entity d _) fun f _ => FailsOnly.ok _
      · exact FailsOnly.ok _

theorem arguments_of_line {block : String} {line : Nat × String} {d : Declaration}
    (read : Declaration.ofLine line.2 line.1 block = .ok d) :
    lineArguments block line = d.directives.arguments := by
  rw [lineArguments, read]

theorem members_fails {b : Block} {lines : List (Nat × String)} (inside : lines ⊆ b.contentLines) :
    FailsOnly (SchemaFault.Expected b.arguments) (members dialect enums b.name lines) := by
  induction lines with
  | nil => exact FailsOnly.ok []
  | cons line rest ih =>
    have here : lineArguments b.name line ⊆ b.arguments := fun arg given =>
      List.mem_append_right _ (List.mem_flatMap.2 ⟨line, inside List.mem_cons_self, given⟩)
    rw [members]
    refine FailsOnly.bind (FailsOnly.mapError fun f _ => .declaration f) fun d read => ?_
    rw [arguments_of_line (mapError_eq_ok.1 read)] at here
    refine FailsOnly.bind ((memberOf_fails b.name d).imp fun f => .mono here) fun m _ => ?_
    refine FailsOnly.bind (ih fun line member => inside (List.mem_cons_of_mem _ member)) ?_
    intro ms _
    exact FailsOnly.ok _

/-! ## Blocks -/

/-- A setting that is read takes truth values. -/
theorem exists_assign_setting {directive : String × String} (known : directive ∈ settingDirectives)
    (on : Bool) (s : EntitySettings) :
    ∃ s', Record.settingsPart.assign directive.2 (.bool on) s = .ok s' := by
  simp only [settingDirectives, List.mem_cons, List.not_mem_nil, or_false] at known
  rcases known with rfl | rfl | rfl <;>
    simp [Record.Part.assign, Record.settingsPart, Record.commonDerived,
      Record.Attribute.optional, Except.map]

theorem settingsFrom_fails {b : Block} {s : EntitySettings}
    {directives : List (String × String)} (known : ∀ e ∈ directives, e ∈ settingDirectives) :
    FailsOnly (SchemaFault.Expected b.arguments) (settingsFrom b s directives) := by
  induction directives generalizing s with
  | nil => exact FailsOnly.ok s
  | cons directive rest ih =>
    have later : ∀ e ∈ rest, e ∈ settingDirectives :=
      fun e member => known e (List.mem_cons_of_mem _ member)
    obtain ⟨directive, name⟩ := directive
    unfold settingsFrom
    split
    · exact ih later
    · rename_i arg found
      refine FailsOnly.bind ?_ fun on _ => ?_
      · unfold switchesOn
        split
        · exact FailsOnly.ok _
        · rename_i text
          have given : text ∈ b.arguments :=
            List.mem_append_left _ (mem_arguments_of_lookup found)
          refine FailsOnly.bind (literalValue_fails given) fun v _ => ?_
          split <;> exact FailsOnly.ok _
      · obtain ⟨s', set⟩ := exists_assign_setting (known _ List.mem_cons_self) on s
        rw [set]
        exact FailsOnly.bind (FailsOnly.ok s') fun _ _ => ih later

theorem shellOf_fails (b : Block) :
    FailsOnly (SchemaFault.Expected b.arguments) (shellOf dialect enums b) := by
  unfold shellOf
  refine FailsOnly.bind (settingsFrom_fails fun e member => member) fun settings _ => ?_
  rw [entityPart_shellRecord]
  refine FailsOnly.bind (FailsOnly.ok _) fun e _ => ?_
  refine FailsOnly.bind (members_fails fun line member => member) fun ms _ => ?_
  exact FailsOnly.ok _

theorem shellsFrom_fails {seen : List String} {bs : List Block}
    (inside : ∀ b ∈ bs, b.arguments ⊆ args) :
    FailsOnly (SchemaFault.Expected args) (shellsFrom dialect enums seen bs) := by
  induction bs generalizing seen with
  | nil => exact FailsOnly.ok []
  | cons b rest ih =>
    have here := inside b List.mem_cons_self
    rw [shellsFrom]
    refine FailsOnly.bind ((shellOf_fails b).imp fun f => .mono here) fun shell _ => ?_
    split
    · exact FailsOnly.bind (FailsOnly.error (.entityRepeated _)) fun _ _ => FailsOnly.bind
        (ih fun b member => inside b (List.mem_cons_of_mem _ member)) fun _ _ => FailsOnly.ok _
    · exact FailsOnly.bind (ih fun b member => inside b (List.mem_cons_of_mem _ member))
        fun _ _ => FailsOnly.ok _

theorem configEntries_fails {b : Block} {es : Entries} {lines : List (Nat × String)}
    (inside : lines ⊆ b.contentLines) :
    FailsOnly (SchemaFault.Expected b.arguments) (configEntries b es lines) := by
  induction lines generalizing es with
  | nil => exact FailsOnly.ok es
  | cons line rest ih =>
    have here : lineArguments b.name line ⊆ b.arguments := fun arg given =>
      List.mem_append_right _ (List.mem_flatMap.2 ⟨line, inside List.mem_cons_self, given⟩)
    have later : rest ⊆ b.contentLines := fun line member =>
      inside (List.mem_cons_of_mem _ member)
    rw [configEntries]
    refine FailsOnly.bind (FailsOnly.mapError fun f _ => .declaration f) fun d read => ?_
    rw [arguments_of_line (mapError_eq_ok.1 read)] at here
    refine FailsOnly.bind ?_ fun entry _ => ?_
    · unfold configEntry?
      dsimp only
      split
      · exact FailsOnly.ok none
      · split
        · exact FailsOnly.ok none
        · rename_i arg found
          refine FailsOnly.bind (literalValue_fails (here (mem_arguments_of_raw? found))) ?_
          intro v _
          split
          · exact FailsOnly.ok _
          · split <;> exact FailsOnly.ok _
          · exact FailsOnly.ok _
    · split <;> exact ih later

theorem appOf_fails {bs : List Block} (inside : ∀ b ∈ bs, b.arguments ⊆ args) :
    FailsOnly (SchemaFault.Expected args) (appOf bs) := by
  unfold appOf
  split
  · exact FailsOnly.ok _
  · rename_i b single
    have member : b ∈ bs := by
      have kept : b ∈ bs.filter Block.isConfig := single ▸ List.mem_cons_self
      exact (List.mem_filter.1 kept).1
    have entries : FailsOnly (SchemaFault.Expected b.arguments)
        (configEntries b [] b.contentLines) :=
      configEntries_fails fun line member => member
    refine FailsOnly.bind (entries.imp fun f => .mono (inside b member)) fun es _ => ?_
    exact FailsOnly.mapError fun i _ => .configInvalid b.name i
  · exact FailsOnly.error (.configRepeated _)

theorem enumsFrom_fails {seen : List String} {bs : List Block} :
    FailsOnly (SchemaFault.Expected args) (enumsFrom seen bs) := by
  induction bs generalizing seen with
  | nil => exact FailsOnly.ok []
  | cons b rest ih =>
    have made : FailsOnly (SchemaFault.Expected args) (enumOf b) :=
      FailsOnly.mapError fun i _ => .enumInvalid b.name i
    rw [enumsFrom]
    split
    · exact FailsOnly.bind (FailsOnly.error (.enumRepeated _)) fun _ _ => FailsOnly.bind made
        fun _ _ => FailsOnly.bind ih fun _ _ => FailsOnly.ok _
    · exact FailsOnly.bind made fun _ _ => FailsOnly.bind ih fun _ _ => FailsOnly.ok _

/-! ## Relations -/

/-- The pieces of a declared relation are texts, so only a missing end keeps it from being one. -/
theorem relationOf_fails (names : List String) (entity : String) (d : Declaration) :
    FailsOnly (SchemaFault.Expected d.directives.arguments)
      (relationOf dialect names entity d) := by
  unfold relationOf
  refine FailsOnly.bind ?_ fun type _ => ?_
  · unfold relationTypeOf
    split
    · exact FailsOnly.ok _
    · exact FailsOnly.bind (hintsOf_fails d) fun hints _ => FailsOnly.ok _
  refine FailsOnly.bind (FailsOnly.mapError fun f failed => ?_) fun r _ => FailsOnly.ok _
  obtain ⟨f', rfl⟩ := Record.exists_of_buildSketch_error failed
  exact .relation f'

theorem complete_fails {names : List String} {b : Block} {s : Shell} (shell : s.Of b) :
    FailsOnly (SchemaFault.Expected b.arguments) (s.complete dialect names) := by
  unfold Shell.complete
  refine FailsOnly.bind (FailsOnly.mapM fun d member => ?_) fun rs _ => FailsOnly.ok _
  obtain ⟨line, among, read⟩ := shell.pending d member
  refine (relationOf_fails names s.entity.name d).imp fun f => .mono fun arg given => ?_
  rw [← arguments_of_line read] at given
  exact List.mem_append_right _ (List.mem_flatMap.2 ⟨line, among, given⟩)

end

/-! ## Texts -/

theorem read_fails (dialect : Dialect) (s : String) :
    FailsOnly (SchemaFault.Expected (arguments s)) (read dialect s) := by
  have every : ∀ b ∈ blocks s, b.arguments ⊆ arguments s :=
    fun b member arg given => List.mem_flatMap.2 ⟨b, member, given⟩
  have entity : ∀ b ∈ (blocks s).filter Block.isEntity, b.arguments ⊆ arguments s :=
    fun b member => every b (List.mem_filter.1 member).1
  unfold read
  refine FailsOnly.bind ?_ fun c _ => FailsOnly.ok _
  show FailsOnly _ (contentsOf dialect (blocks s))
  unfold contentsOf
  refine FailsOnly.bind (appOf_fails every) fun app _ => ?_
  refine FailsOnly.bind enumsFrom_fails fun enums _ => ?_
  refine FailsOnly.bind (shellsFrom_fails entity) fun shells shelled => ?_
  refine FailsOnly.bind (FailsOnly.mapM fun shell member => ?_) fun pairs _ => FailsOnly.ok _
  obtain ⟨made, -, -⟩ := shells_of_shellsFrom shelled
  obtain ⟨b, kept, shape⟩ := exists_of_mem_right made member
  exact (complete_fails shape).imp fun f => .mono (entity b kept)

end Schema

/-! ## Failures -/

/-- The failures that loading a text with the given arguments can end with: problems of a text, of a
    relation or of a graph, and a whole number with too many digits. -/
inductive Failure.OfSchema (args : List String) : Failure → Prop
  | problem (p : Problem)
      (known : p.category ∈ [.parse, .relationDefinition, .structural, .referential]) :
      OfSchema args (.problem p)
  | digits {arg : String} (e : Decimal.DigitExcess) (given : arg ∈ args)
      (long : Schema.IsLongNumeral arg) : OfSchema args (.ofDigits e)

/-- What a check makes is taken as it is: relations that lead back, fields for keys, and what other
    fields refer to. -/
structure Check.Taken : Prop where
  relations : ∀ (d : Draft String) (f : Record.SketchFault),
    Record.buildSketch (d.map .text) = .error f → ∃ f', f = .unset f'
  fields : ∀ nullable key target, Record.fieldPart.ofRecord (keyField nullable key target).record =
    .ok (keyField nullable key target)
  references : ∀ (f : Field) (target : String),
    Record.fieldPart.assign "belongs_to" (.text target) f = .ok { f with belongsTo := some target }

theorem Check.taken : Check.Taken := by
  refine ⟨fun d f failed => Record.exists_of_buildSketch_error failed, ?_, ?_⟩
  · intro nullable key target
    refine Record.ofRecord_of_readEntries (Record.fieldPart_record ?_)
    rintro n ⟨⟩
  · intro f target
    simp [Record.Part.assign, Record.fieldPart, Record.commonDerived, Record.Attribute.optional,
      Record.orNull, Except.map]

theorem Failure.ofSchema_expected {args : List String} {f : Schema.SchemaFault}
    (expected : f.Expected args) : (ofSchema f).OfSchema args := by
  cases expected with
  | digits e given long => exact .digits e given long
  | relation f => cases f <;> exact .problem _ (by simp [Problem.ofDraft])
  | declaration | configRepeated | configInvalid | enumRepeated | enumInvalid | entityRepeated
  | notWhole => exact .problem _ (by simp)

theorem Failure.checkCategory_mem (f : CheckFault) :
    checkCategory f ∈ [.parse, .relationDefinition, .structural, .referential] := by
  cases f <;> simp [checkCategory]

theorem Failure.ofCheck_expected (args : List String) (f : CheckFault) :
    (ofCheck f).OfSchema args :=
  .problem _ (checkCategory_mem f)

/-- A test of what reading the pieces of a text fails with. -/
def Schema.failsPieces (dialect : Dialect) (ps : List Piece) (test : SchemaFault → Bool) : Bool :=
  match contentsOf dialect (ps.filterMap Piece.block?) with
  | .ok _ => false
  | .error f => test f

theorem Schema.exists_of_failsPieces {dialect : Dialect} {s : String} {ps : List Piece}
    {test : SchemaFault → Bool} (split : pieces s = ps)
    (fails : failsPieces dialect ps test = true) :
    ∃ f, read dialect s = .error f ∧ test f = true := by
  unfold failsPieces at fails
  split at fails
  · cases fails
  · rename_i f failed
    refine ⟨f, ?_, fails⟩
    rw [Schema.read, split, failed]
    rfl

theorem Loader.load_sdl_of_error {l : Loader} {s : String} {f : Schema.SchemaFault}
    (failed : Schema.read l.dialect s = .error f) :
    l.load (some (.text s)) (.text "sdl") = .error (.ofSchema f) := by
  rw [load_sdl]
  simp only [Source.load, Source.build, Source.contents, Source.schemaText, bind, Except.bind,
    failed, Except.mapError]

/-- Loading a schema text gives a graph, or fails in one of the expected ways: neither its parts nor
    what its check makes is ever refused. -/
theorem Loader.load_schema_fails (l : Loader) (s : String) :
    (∀ f, l.load (some (.text s)) (.text "sdl") = .error f → f.OfSchema (Schema.arguments s)) ∧
      (∀ dialect entity field line i,
        Schema.read dialect s ≠ .error (.fieldInvalid entity field line i)) ∧
      Check.Taken := by
  refine ⟨?_, ?_, Check.taken⟩
  · rw [Loader.load_sdl]
    unfold Source.load Source.build
    refine FailsOnly.bind (FailsOnly.bind ?_ fun c _ => FailsOnly.ok _) fun g _ => ?_
    · refine FailsOnly.bind (FailsOnly.ok s) fun text same => ?_
      obtain rfl : s = text := Except.ok.inj same
      refine FailsOnly.mapError fun f failed => ?_
      exact Failure.ofSchema_expected (Schema.read_fails _ s f failed)
    · obtain ⟨g, warnings⟩ := g
      dsimp only
      split
      · exact FailsOnly.ok _
      · exact FailsOnly.error (Failure.ofCheck_expected _ _)
  · intro dialect entity field line i failed
    cases Schema.read_fails dialect s _ failed

/-- A text with a bound that is no number. -/
def Schema.boundless : String :=
  "type Order \x7b\n  total: Int @min(low)\n\x7d"

/-- The blocks of the text. -/
def Schema.boundlessPieces : List Schema.Piece := [
  .block ⟨.type, "Order", [], [(1, ""), (2, "  total: Int @min(low)"), (3, "")]⟩]

/-- Loading the text fails with the problem of its bound. -/
theorem Loader.load_schema_fails_boundless : ∃ f : Failure,
    f = .parse "@min on 'Order.total' (line 2) expects an integer, got 'low'."
      { entity := some "Order", field := some "total" } ∧
    Loader.load {} (some (.text Schema.boundless)) (.text "sdl") = .error f ∧
      f.OfSchema (Schema.arguments Schema.boundless) := by
  have split : Schema.pieces Schema.boundless = Schema.boundlessPieces := by decide +kernel
  have fails : Schema.failsPieces {} Schema.boundlessPieces (fun f => Failure.ofSchema f ==
      .parse "@min on 'Order.total' (line 2) expects an integer, got 'low'."
        { entity := some "Order", field := some "total" }) = true := by
    decide +kernel
  obtain ⟨f, read, same⟩ := Schema.exists_of_failsPieces split fails
  have failed := Loader.load_sdl_of_error (l := {}) read
  exact ⟨_, beq_iff_eq.1 same, failed, (Loader.load_schema_fails {} _).1 _ failed⟩

end EntityGraph
