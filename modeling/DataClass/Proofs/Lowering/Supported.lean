import DataClass.Proofs.Lowering.Accessors
import DataClass.Proofs.Lowering.Fitting
namespace DataClass.Lowering

/-! Which programs can be lowered. This is told by their nodes, by the names of their classes, and by the
fields and the constructors of each class. -/

/-! ### Classes -/

def fieldNodes (field : Field) : List Node :=
  .name field.name :: (optionTypeNodes field.type ++ optionNodes .absent field.default)

def constructorNodes (constructor : Constructor) : List Node :=
  constructor.params.flatMap paramNodes ++ bodyNodes .built constructor.body

variable {table : ClassTable} {info : ClassInfo}

/-- The nodes of the members fit if those of each sort of member do. -/
theorem allFit_members {decl : Class} :
    AllFit table (decl.members.flatMap memberNodes) ↔
      (∀ entry ∈ decl.fields, AllFit table (fieldNodes entry.field)) ∧
        ((∀ constructor ∈ decl.members.filterMap Member.constructor?,
            AllFit table (constructorNodes constructor)) ∧
          ∀ body ∈ decl.members.filterMap Member.initializer?, AllFit table (bodyNodes .built body)) ∧
        ∀ method ∈ decl.methods, AllFit table (methodNodes .borrowed method) := by
  rw [allFit_flatMap]
  constructor
  · intro each
    refine ⟨fun entry inside => ?_, ⟨fun constructor inside => ?_, fun body inside => ?_⟩,
      fun method inside => ?_⟩
    · exact each _ (List.mem_of_getElem? (Class.mem_fields.mp inside))
    all_goals
      obtain ⟨member, listed, found⟩ := List.mem_filterMap.mp inside
      cases member <;> cases found
      exact each _ listed
  · rintro ⟨fields, ⟨constructors, initializers⟩, methods⟩ member listed
    cases member with
    | field span field =>
        obtain ⟨index, held⟩ := List.getElem?_of_mem listed
        exact fields ⟨index, field, span⟩ (Class.mem_fields.mpr held)
    | constructor span constructor =>
        exact constructors constructor (List.mem_filterMap.mpr ⟨_, listed, rfl⟩)
    | initializer span body => exact initializers body (List.mem_filterMap.mpr ⟨_, listed, rfl⟩)
    | method span method => exact methods method (List.mem_filterMap.mpr ⟨_, listed, rfl⟩)
    | nested span decl => exact allFit_nil

theorem bodyNodes_append (receiver : Receiver) (first second : List Stmt) :
    bodyNodes receiver (first ++ second) = bodyNodes receiver first ++ bodyNodes receiver second := by
  induction first with
  | nil => rfl
  | cons stmt rest ih => rw [List.cons_append, bodyNodes, bodyNodes, ih, List.append_assoc]

theorem allFit_flatten {receiver : Receiver} {bodies : List (List Stmt)} :
    AllFit table (bodyNodes receiver bodies.flatten) ↔
      ∀ body ∈ bodies, AllFit table (bodyNodes receiver body) := by
  induction bodies with
  | nil => simp [bodyNodes]
  | cons body rest ih => simp [bodyNodes_append, ih]

/-- The types that defaults tell are builtin types without arguments. -/
theorem allFit_inferredType {default : Expr} {type : TypeRef}
    (told : inferredType? default = some type) : AllFit table (typeNodes type) := by
  have builtin (type : BuiltinType) (plain : type.arity = 0) :
      AllFit table (typeNodes (builtinRef type)) := by
    simp [builtinRef, typeNodes, typesNodes, pathNodes, Node.Fits, builtin?,
      BuiltinType.ofSpelling?_canonical, plain]
  cases default <;> cases told <;> exact builtin _ rfl

theorem hinges_lowerInitial (default : Option Expr) :
    HingesOn (lowerInitial table info default) (AllFit table (optionNodes .absent default)) := by
  cases default with
  | none => exact (HingesOn.ok defaultCall).of_iff (by simp [optionNodes])
  | some default => exact hinges_lowerExpr ⟨table, some info, .absent, []⟩ .value default

theorem hinges_lowerField {field : Field} (known : info.fieldType? field.name = knownType? field) :
    HingesOn (lowerField table info field)
      ((knownType? field).isSome = true ∧ AllFit table (fieldNodes field)) := by
  unfold lowerField
  rw [known]
  cases told : knownType? field with
  | none => exact (HingesOn.error (by simp)).of_iff (by simp)
  | some type =>
      -- A type that a default tells fits by itself, so it adds nothing to what is asked.
      have typed : AllFit table (typeNodes type) ↔ AllFit table (optionTypeNodes field.type) := by
        unfold knownType? at told
        cases given : field.type with
        | some declared =>
            rw [given] at told
            rw [Option.some.inj told, optionTypeNodes]
        | none =>
            rw [given] at told
            obtain ⟨default, _, inferred⟩ := Option.bind_eq_some_iff.mp told
            simp [optionTypeNodes, allFit_inferredType inferred]
      exact ((hinges_identifier table field.name).bind fun _ _ =>
        (hinges_lowerType table type).bind fun _ _ =>
          (hinges_lowerInitial field.default).form _).of_iff (by simp [fieldNodes, typed])

theorem hinges_lowerBuilder (isPublic : Bool) (params : List Param) (body : List Stmt) :
    HingesOn (lowerBuilder table info isPublic params body)
      (AllFit table (params.flatMap paramNodes) ∧ AllFit table (bodyNodes .built body)) :=
  (hinges_lowerParams ⟨table, some info, .built, body⟩ params).bind fun _ _ =>
    (hinges_lowerBody ⟨table, some info, .built, body⟩ body).form _

theorem hinges_lowerNew {decl : Class} (built : info.hasNew = decl.members.any isBuilder) :
    HingesOn (lowerNew table info decl)
      ((decl.members.filterMap Member.constructor?).length ≤ 1 ∧
        (∀ constructor ∈ decl.members.filterMap Member.constructor?,
          AllFit table (constructorNodes constructor)) ∧
        ∀ body ∈ decl.members.filterMap Member.initializer?, AllFit table (bodyNodes .built body)) := by
  unfold lowerNew
  cases builds : info.hasNew with
  | false =>
      rw [built] at builds
      have none : ∀ member ∈ decl.members, isBuilder member = false := by simpa using builds
      have noConstructor : decl.members.filterMap Member.constructor? = [] := by
        refine List.filterMap_eq_nil_iff.mpr fun member listed => ?_
        cases member with
        | constructor span decl => cases none _ listed
        | _ => rfl
      have noInitializer : decl.members.filterMap Member.initializer? = [] := by
        refine List.filterMap_eq_nil_iff.mpr fun member listed => ?_
        cases member with
        | initializer span body => cases none _ listed
        | _ => rfl
      exact (HingesOn.ok []).of_iff (by simp [noConstructor, noInitializer])
  | true =>
      rw [if_pos rfl]
      dsimp only
      cases constructors : decl.members.filterMap Member.constructor? with
      | nil =>
          exact ((hinges_lowerBuilder true [] _).form ([·])).of_iff (by simp [allFit_flatten])
      | cons constructor rest =>
          cases rest with
          | nil =>
              refine ((hinges_lowerBuilder constructor.isPublic constructor.params _).form
                ([·])).of_iff ?_
              rw [bodyNodes_append, allFit_append, allFit_flatten, List.forall_mem_singleton,
                constructorNodes, allFit_append]
              exact ⟨fun ⟨params, initializers, body⟩ => ⟨Nat.le_refl 1, ⟨params, body⟩, initializers⟩,
                fun ⟨_, ⟨params, body⟩, initializers⟩ => ⟨params, initializers, body⟩⟩
          | cons second others => exact (HingesOn.error (by simp)).of_iff (by simp)

theorem hinges_lowerClassMethod (method : Method) :
    HingesOn (lowerClassMethod table info method) (AllFit table (methodNodes .borrowed method)) :=
  hinges_lowerMethod ⟨table, some info, .borrowed, method.body⟩ _ method

/-- What has to hold for a class apart from its nodes: every field has a type, and there is no second
constructor. -/
structure Buildable (decl : Class) : Prop where
  typed : ∀ entry ∈ decl.fields, (knownType? entry.field).isSome = true
  single : (decl.members.filterMap Member.constructor?).length ≤ 1

theorem hinges_lowerClass {classes : List Class} {decl : Class} (about : table.About classes)
    (declared : decl ∈ classes) (apart : (decl.fields.map (·.field.name)).Nodup) :
    HingesOn (lowerClass table decl)
      (Buildable decl ∧ AllFit table (classNodes decl)) := by
  obtain ⟨marked, found⟩ := about.found decl declared
  unfold lowerClass
  rw [found]
  have fields : HingesOn
      (decl.fields.mapM fun entry =>
        lowerField table { ClassInfo.ofClass decl with mutators := marked } entry.field)
      (∀ entry ∈ decl.fields, (knownType? entry.field).isSome = true ∧
        AllFit table (fieldNodes entry.field)) :=
    .mapM fun entry inside => hinges_lowerField (fieldType?_of_found about declared found apart inside)
  refine ((hinges_identifier table decl.name).bind fun _ _ => fields.bind fun _ _ =>
    (hinges_lowerNew rfl).bind fun _ _ =>
      (HingesOn.mapM fun method _ => hinges_lowerClassMethod method).form _).of_iff ?_
  rw [classNodes, allFit_cons, allFit_members]
  constructor
  · rintro ⟨named, entries, ⟨single, builders⟩, methods⟩
    exact ⟨⟨fun entry inside => (entries entry inside).1, single⟩, named,
      fun entry inside => (entries entry inside).2, builders, methods⟩
  · rintro ⟨⟨typed, single⟩, named, entries, builders, methods⟩
    exact ⟨named, fun entry inside => ⟨typed entry inside, entries entry inside⟩,
      ⟨single, builders⟩, methods⟩

/-! ### Programs -/

/-- No class has two fields of one name. -/
def FieldsApart (program : Program) : Prop :=
  ∀ decl ∈ allClasses program, (decl.fields.map (·.field.name)).Nodup

instance (program : Program) : Decidable (FieldsApart program) :=
  inferInstanceAs (Decidable (∀ decl ∈ allClasses program, (decl.fields.map (·.field.name)).Nodup))

theorem hinges_lowerProgram {program : Program} {options : EmitOptions}
    (about : table.About (allClasses program)) (apart : FieldsApart program) :
    HingesOn (Emitter.lowerProgram ⟨options, table⟩ program)
      ((∀ decl ∈ allClasses program, Buildable decl) ∧ AllFit table (programNodes program)) := by
  have each (declaration : Declaration) (listed : declaration ∈ program.declarations) :
      HingesOn (lowerDeclaration table declaration)
        ((∀ decl ∈ declaredClasses declaration, Buildable decl) ∧
          AllFit table (declarationNodes declaration)) := by
    cases declaration with
    | importPath span path =>
        exact ((hinges_identifiers table path).form _).of_iff
          (by simp [declaredClasses, declarationNodes])
    | function span method =>
        exact (hinges_lowerMethod ⟨table, none, .absent, method.body⟩ [] method).of_iff
          (by simp [declaredClasses, declarationNodes])
    | type span decl =>
        have inside (found : Class) (below : found ∈ classTree decl) :
            found ∈ allClasses program := by
          rw [allClasses_eq_flatMap]
          exact List.mem_flatMap.mpr ⟨_, listed, below⟩
        exact ((HingesOn.mapM fun found below =>
          hinges_lowerClass about (inside found below) (apart found (inside found below))).form
            List.flatten).of_iff (by simp [declaredClasses, declarationNodes, forall_and])
  refine ((HingesOn.mapM each).form _).of_iff ?_
  simp only [forall_and, programNodes, allFit_flatMap, allClasses_eq_flatMap, List.forall_mem_flatMap]

/-! ### Collecting -/

/-- Classes with names of their own can be entered. -/
theorem enterAll_of_nodup {classes : List Class} (apart : (classes.map Class.name).Nodup)
    (free : ∀ decl ∈ classes, table.find? decl.name = none) :
    ∃ entered, table.enterAll classes = (entered, none) := by
  induction classes generalizing table with
  | nil => exact ⟨table, rfl⟩
  | cons decl rest ih =>
      obtain ⟨other, apart⟩ := List.nodup_cons.mp apart
      obtain ⟨here, later⟩ := List.forall_mem_cons.mp free
      rw [ClassTable.enterAll, here]
      refine ih apart fun found inside => ?_
      have differs : decl.name ≠ found.name := fun same =>
        other (same ▸ List.mem_map_of_mem inside)
      simpa [ClassTable.find?, ClassTable.enter, ClassInfo.ofClass, differs] using later found inside

theorem enterAll_fault {classes : List Class} {entered : ClassTable} {fault : LoweringFault}
    (failed : table.enterAll classes = (entered, some fault)) :
    ∃ name, fault = .duplicateClass name := by
  induction classes generalizing table with
  | nil => cases failed
  | cons decl rest ih =>
      rw [ClassTable.enterAll] at failed
      split at failed
      · cases failed
        exact ⟨_, rfl⟩
      · exact ih failed

/-- A program whose classes have names of their own is collected. -/
theorem collect_of_nodup {program : Program} (start : ClassTable)
    (apart : ((allClasses program).map Class.name).Nodup) :
    ∃ table, start.collect program = (table, none) := by
  have free : ∀ decl ∈ allClasses program, start.clear.find? decl.name = none := fun _ _ => rfl
  obtain ⟨entered, done⟩ := enterAll_of_nodup apart free
  exact ⟨_, by rw [ClassTable.collect, done]⟩

theorem collect_fault {program : Program} {start : ClassTable} {fault : LoweringFault}
    (failed : start.collect program = (table, some fault)) : ∃ name, fault = .duplicateClass name := by
  unfold ClassTable.collect at failed
  dsimp only at failed
  split at failed
  · next entered first done =>
    cases failed
    exact enterAll_fault done
  · cases failed

/-! ### The supported programs -/

/-- The type of a field can be told from its default: a number, a boolean or a string. -/
def TellsType : Expr → Prop
  | .int _ _ | .float _ _ | .bool _ _ | .string _ _ => True
  | _ => False

/-- What a program has to be like to be lowered. -/
structure Supported (program : Program) : Prop where
  /-- Classes have names of their own, wherever they are nested. -/
  distinct : ((allClasses program).map Class.name).Nodup
  /-- Every field has a declared type, or a default that tells it. -/
  typed : ∀ decl ∈ allClasses program, ∀ entry ∈ decl.fields,
    entry.field.type.isSome = true ∨ ∃ default ∈ entry.field.default, TellsType default
  /-- No class has two constructors. -/
  single : ∀ decl ∈ allClasses program, (decl.members.filterMap Member.constructor?).length ≤ 1
  /-- No name that is written is an underscore. -/
  named : .name "_" ∉ programNodes program
  /-- Builtin types have their number of arguments. -/
  fitting : ∀ span path arguments, .type (.named span path arguments) ∈ programNodes program →
    ∀ builtin, builtin? path = some builtin → arguments.length = builtin.arity
  /-- Numbers are finite. -/
  finite : ∀ receiver span value, .expr receiver (.float span value) ∈ programNodes program →
    value.isFinite = true
  /-- There is no `this` in functions outside of classes and in defaults of fields. -/
  inside : ∀ span, .expr .absent (.this span) ∉ programNodes program
  /-- Constructors and initializers give no value back, at any depth. -/
  silent : ∀ span value, .stmt .built (.giveBack span (some value)) ∉ programNodes program
  /-- A class without a constructor and without an initializer is called without arguments. -/
  constructed : ∀ receiver span place name arguments,
    .expr receiver (.call span (.ident place name) arguments) ∈ programNodes program →
      ∀ decl ∈ allClasses program, decl.name = name → decl.members.any isBuilder = false →
        arguments = []

theorem isSome_knownType?_iff {field : Field} : (knownType? field).isSome = true ↔
    field.type.isSome = true ∨ ∃ default ∈ field.default, TellsType default := by
  have told (default : Expr) : (inferredType? default).isSome = true ↔ TellsType default := by
    cases default <;> simp [inferredType?, TellsType]
  unfold knownType?
  cases field.type with
  | some type => simp
  | none => cases field.default <;> simp [told]

theorem identifier_ok_iff {word : String} (spelled : isIdentifier word = true) :
    (∃ token, identifier word = .ok token) ↔ word ≠ "_" := by
  unfold identifier
  by_cases blank : word = "_" <;> simp [blank, spelled]

/-- What the table knows of a class that is called. -/
theorem hasNew_iff {classes : List Class} (about : table.About classes) {name : String}
    {arguments : List Expr} :
    (∀ info, table.find? name = some info → info.hasNew = false → arguments = []) ↔
      ∀ decl ∈ classes, decl.name = name → decl.members.any isBuilder = false → arguments = [] := by
  constructor
  · rintro each decl inside rfl plain
    obtain ⟨marked, found⟩ := about.found decl inside
    exact each _ found plain
  · intro each info found plain
    obtain ⟨decl, inside, same⟩ := about.only info (List.mem_of_find?_eq_some found)
    have called : info.name = name := by simpa using List.find?_some found
    obtain ⟨marked, known⟩ := about.found decl inside
    rw [same, called, found] at known
    refine each decl inside (same.trans called) ?_
    rw [Option.some.inj known] at plain
    exact plain

theorem supported_iff {program : Program} (about : table.About (allClasses program))
    (spellable : Spellable (programNodes program)) :
    (∀ decl ∈ allClasses program, Buildable decl) ∧ AllFit table (programNodes program) ↔
      Supported program := by
  constructor
  · rintro ⟨buildable, fits⟩
    exact {
      distinct := about.apart
      typed := fun decl inside entry held =>
        isSome_knownType?_iff.mp ((buildable decl inside).typed entry held)
      single := fun decl inside => (buildable decl inside).single
      named := fun held => (identifier_ok_iff (spellable _ held)).mp (fits _ held) rfl
      fitting := fun span path arguments held builtin known => (fits _ held builtin known).symm
      finite := fun receiver span value held => fits _ held
      inside := fun span held => fits _ held rfl
      silent := fun span value held => fits _ held rfl
      constructed := fun receiver span place name arguments held =>
        (hasNew_iff about).mp (fits _ held) }
  · intro supported
    refine ⟨fun decl inside => ⟨fun entry held =>
      isSome_knownType?_iff.mpr (supported.typed decl inside entry held),
        supported.single decl inside⟩, fun node held => ?_⟩
    cases node with
    | name word =>
        refine (identifier_ok_iff (spellable _ held)).mpr ?_
        rintro rfl
        exact supported.named held
    | type type =>
        cases type with
        | named span path arguments =>
            exact fun builtin known => (supported.fitting span path arguments held builtin known).symm
        | _ => trivial
    | expr receiver expr =>
        cases expr with
        | float span value => exact supported.finite receiver span value held
        | this span =>
            rintro rfl
            exact supported.inside span held
        | call span callee arguments =>
            cases callee with
            | ident place name =>
                exact (hasNew_iff about).mpr
                  (supported.constructed receiver span place name arguments held)
            | _ => trivial
        | _ => trivial
    | stmt receiver stmt =>
        cases stmt with
        | giveBack span value =>
            cases value with
            | none => trivial
            | some value =>
                rintro rfl
                exact supported.silent span value held
        | _ => trivial

/-- The programs that can be lowered are the supported ones. Whether the classes of a program are known
is never the reason that it cannot be lowered. -/
theorem emit_ok_iff_supported {source : String} {program : Program}
    (parsed : Program.ofSource source = .ok program) (apart : FieldsApart program)
    (emitter : Emitter) :
    ((∃ file, (emitter.emit program).1 = .ok file) ↔ Supported program) ∧
      ∀ name, (emitter.emit program).1 ≠ .error (.unknownClass name) := by
  have spellable := spellable_programNodes (Program.writable_of_ofSource parsed)
  unfold Emitter.emit
  cases collected : emitter.table.collect program with
  | mk table fault =>
      cases fault with
      | none =>
          obtain ⟨about, _⟩ := ClassTable.collect_about collected
          have hinges : HingesOn (Emitter.lowerProgram ⟨emitter.options, table⟩ program) _ :=
            hinges_lowerProgram about apart
          exact ⟨hinges.succeeds.trans (supported_iff about spellable), hinges.known⟩
      | some fault =>
          obtain ⟨name, rfl⟩ := collect_fault collected
          refine ⟨⟨nofun, fun supported => ?_⟩, fun other => by simp⟩
          obtain ⟨_, done⟩ := collect_of_nodup emitter.table supported.distinct
          rw [collected] at done
          cases done

/-- A class without a constructor, and a function that calls it. -/
def callText (arguments : String) : String :=
  "class A\x7bx=1;fn f():Dict<Int,A>\x7breturn this.x;\x7d\x7dfn g()\x7blet a=A(" ++ arguments ++ ");\x7d"

theorem emit_ok_iff_supported_call :
    (∃ program file,
      Program.ofSource (callText "") = .ok program ∧ FieldsApart program ∧
      ((Emitter.fresh .standard).emit program).1 = .ok file ∧ Supported program) ∧
    ∃ program,
      Program.ofSource (callText "2") = .ok program ∧ FieldsApart program ∧
      (∀ file, ((Emitter.fresh .standard).emit program).1 ≠ .ok file) ∧ ¬ Supported program := by
  let emits (program : Program) : Bool := ((Emitter.fresh .standard).emit program).1.toOption.isSome
  constructor
  · obtain ⟨program, parsed, passed⟩ : ∃ program, Program.ofSource (callText "") = .ok program ∧
        (decide (FieldsApart program) && emits program) = true :=
      Program.exists_read _ (by decide +kernel)
    simp only [emits, Bool.and_eq_true, decide_eq_true_eq] at passed
    obtain ⟨apart, emits⟩ := passed
    cases emitted : ((Emitter.fresh .standard).emit program).1 with
    | error fault => rw [emitted] at emits; cases emits
    | ok file =>
        exact ⟨program, file, parsed, apart, emitted,
          (emit_ok_iff_supported parsed apart _).1.mp ⟨file, emitted⟩⟩
  · obtain ⟨program, parsed, passed⟩ : ∃ program, Program.ofSource (callText "2") = .ok program ∧
        (decide (FieldsApart program) && !emits program) = true :=
      Program.exists_read _ (by decide +kernel)
    simp only [emits, Bool.and_eq_true, decide_eq_true_eq] at passed
    obtain ⟨apart, fails⟩ := passed
    have none (file : TargetFile) : ((Emitter.fresh .standard).emit program).1 ≠ .ok file := by
      intro emitted
      rw [emitted] at fails
      cases fails
    exact ⟨program, parsed, apart, none, fun supported =>
      (emit_ok_iff_supported parsed apart _).1.mpr supported |>.elim none⟩

end DataClass.Lowering
