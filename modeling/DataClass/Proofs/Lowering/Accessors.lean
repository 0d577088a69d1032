import DataClass.Proofs.Accessor.Rewriting
import DataClass.Proofs.Lowering.Canonical
import DataClass.Proofs.Lowering.Items
import DataClass.Proofs.Lowering.Mutators
namespace DataClass.Lowering

open Accessor Target

/-! What the accessors of a field are lowered to. Their names stay as they are, a getter borrows its
receiver and a setter may change it, whatever else the program has. -/

theorem exists_append_of_nodup_map {α : Type} {key : α → String} {values : List α} {value : α}
    (apart : (values.map key).Nodup) (inside : value ∈ values) :
    ∃ before after, values = before ++ value :: after ∧
      ∀ other ∈ before ++ after, key other ≠ key value := by
  obtain ⟨before, after, rfl⟩ := List.append_of_mem inside
  rw [List.map_append, List.map_cons, List.nodup_middle, List.nodup_cons, ← List.map_append] at apart
  exact ⟨before, after, rfl, fun other held same => apart.1 (same ▸ List.mem_map_of_mem held)⟩

theorem filter_of_nodup_map {α : Type} {key : α → String} {values : List α} {value : α}
    (apart : (values.map key).Nodup) (inside : value ∈ values) :
    values.filter (key · == key value) = [value] := by
  obtain ⟨before, after, rfl, others⟩ := exists_append_of_nodup_map apart inside
  have none (part : List α) (inside : ∀ other ∈ part, other ∈ before ++ after) :
      part.filter (key · == key value) = [] :=
    List.filter_eq_nil_iff.mpr fun other held => by simpa using others other (inside other held)
  rw [List.filter_append, List.filter_cons, if_pos (beq_self_eq_true (key value)),
    none before fun _ => List.mem_append_left _, none after fun _ => List.mem_append_right _]
  rfl

/-! ### Names -/

theorem ne_accessorName {word : String} {kind : AccessorKind}
    (unlike : word.toList.take 3 ≠ kind.lead.toList) (field : String) :
    word ≠ accessorName kind field := by
  rintro rfl
  apply unlike
  cases kind <;> simp [accessorName, AccessorKind.lead]

theorem ne_accessorName_of_isReserved {word : String} (reserved : TargetWord.isReserved word = true)
    (kind : AccessorKind) (field : String) : word ≠ accessorName kind field := by
  have unlike : ∀ word ∈ TargetWord.all, word.toList.take 3 ≠ kind.lead.toList := by
    cases kind <;> decide
  exact ne_accessorName (unlike word (List.contains_iff_mem.mp reserved)) field

/-- No other name than that of the accessor has its spelling. -/
theorem identifierSpelling_eq_accessorName {name field : String} {kind : AccessorKind} :
    identifierSpelling name = accessorName kind field ↔ name = accessorName kind field := by
  unfold identifierSpelling
  cases reserved : TargetWord.isReserved name with
  | false => rfl
  | true =>
      refine iff_of_false ?_ (ne_accessorName_of_isReserved reserved kind field)
      rw [if_pos rfl]
      cases raw : TargetWord.canBeRaw name with
      | true => exact ne_accessorName (by cases kind <;> simp [AccessorKind.lead]) field
      | false =>
          have unlike : ∀ word ∈ TargetWord.neverRaw, (word ++ "_").toList.take 3 ≠ kind.lead.toList := by
            cases kind <;> decide
          exact ne_accessorName (unlike name (by simpa [TargetWord.canBeRaw] using raw)) field

theorem identifier_eq_ok {name : String} {token : TargetToken} (named : identifier name = .ok token) :
    token = .word (identifierSpelling name) := by
  unfold identifier at named
  split at named
  · cases named
  · exact (Except.ok.inj named).symm

theorem identifier_eq_accessorName {field : String} {kind : AccessorKind} {token : TargetToken}
    (named : identifier (accessorName kind field) = .ok token) : token = .word (accessorName kind field) := by
  rw [identifier_eq_ok named, identifierSpelling_eq_accessorName.mpr rfl]

/-! ### Tokens -/

/-- The getter of a field in the target language. A value that is not copied when it is read is
cloned. -/
def getterTokens (name : String) (field : TargetToken) (type : Tokens) (isCopied : Bool) : Tokens :=
  .word "pub" :: .word "fn" :: .word name ::
    (Tokens.inParens [.mark "&", .word "self"] ++ .mark "->" :: type ++
      Tokens.inBraces (.word "return" :: .word "self" :: .mark "." :: field ::
        ((if isCopied then [] else .mark "." :: .word "clone" :: Tokens.inParens []) ++
          Tokens.mark ";")))

/-- The setter of a field in the target language. -/
def setterTokens (name : String) (field : TargetToken) (type : Tokens) : Tokens :=
  .word "pub" :: .word "fn" :: .word name ::
    (Tokens.inParens
        (.mark "&" :: .word "mut" :: .word "self" :: .mark "," :: field :: .mark ":" :: type) ++
      Tokens.inBraces [.word "self", .mark ".", field, .mark "=", field, .mark ";"])

variable {table : ClassTable} {info : ClassInfo} {name : String} {type declared : TypeRef} {span : Span}
  {tokens : Tokens}

theorem writesThis_getter (isMutating : String → Bool) :
    writesThis isMutating (getter name type span).body = false := rfl

theorem writesThis_setter (isMutating : String → Bool) :
    writesThis isMutating (setter name type span).body = true := rfl

theorem writesVariable_setter (isMutating : String → Bool) (other : String) :
    writesVariable isMutating (setter name type span).body other = false := rfl

theorem lowerBody_getter {context : Context} (borrowed : context.receiver = .borrowed) :
    lowerBody context (getter name type span).body = do
      let field ← identifier name
      let read := [.word "self", .mark ".", field]
      return ended (.word "return" ::
        if context.isCopyField (thisField name span) then read else cloned read) := by
  have built : ¬ context.receiver = .built := by simp [borrowed]
  rw [getter, lowerBody, lowerStmt, lowerGiveBack, if_neg built, lowerBody, thisField, lowerExpr,
    lowerExpr, borrowed, lowerThis]
  cases identifier name with
  | error fault => rfl
  | ok field =>
      cases context.isCopyField (.field span (.this span) name) with
      | true => rfl
      | false => rfl

theorem lowerBody_setter {context : Context} (borrowed : context.receiver = .borrowed) :
    lowerBody context (setter name type span).body = do
      let field ← identifier name
      return ended [.word "self", .mark ".", field, .mark "=", field] := by
  rw [setter, lowerBody, lowerStmt, lowerBody, thisField, lowerExpr, lowerExpr, lowerExpr, borrowed,
    lowerThis]
  cases identifier name with
  | error fault => rfl
  | ok field => rfl

theorem lowerReturnType_of_value (value : type.isVoid = false) :
    lowerReturnType type = .ok tokens ↔
      ∃ written, lowerType type = .ok written ∧ Tokens.mark "->" ++ written = tokens := by
  rw [lowerReturnType, if_neg (by simp [value]), Lowered.bind_eq_ok]
  simp only [pure, Except.pure, Except.ok.injEq]

theorem lowerClassMethod_getter (value : type.isVoid = false)
    (typed : info.fieldType? name = some declared)
    (reads : accessorName .getter name ∉ info.mutators)
    (lowered : lowerClassMethod table info (getter name type span) = .ok tokens) :
    ∃ field written, identifier name = .ok field ∧ lowerType type = .ok written ∧
      tokens = getterTokens (accessorName .getter name) field written (isCopyType declared) := by
  obtain ⟨called, params, front, body, named, given, returned, inside, rfl⟩ :=
    lowerMethod_eq_ok.mp lowered
  obtain ⟨written, typeWritten, rfl⟩ := (lowerReturnType_of_value value).mp returned
  rw [lowerBody_getter rfl] at inside
  obtain ⟨field, fieldNamed, inside⟩ := Lowered.bind_eq_ok.mp inside
  obtain rfl := Except.ok.inj inside
  obtain rfl := Except.ok.inj given
  obtain rfl := identifier_eq_accessorName named
  have copied (body : List Stmt) :
      Context.isCopyField ⟨table, some info, .borrowed, body⟩ (thisField name span) =
        isCopyType declared := by
    simp [Context.isCopyField, Context.thisFieldType?, thisField, Expr.thisField?, typed]
  refine ⟨field, written, fieldNamed, typeWritten, ?_⟩
  rw [copied]
  cases isCopyType declared <;>
    simp [getter, reads, receiverTokens, getterTokens, visibility, cloned, ended,
      Tokens.commaSeparated, Tokens.separated, Tokens.word, Tokens.mark]

theorem lowerClassMethod_setter (writes : accessorName .setter name ∈ info.mutators)
    (lowered : lowerClassMethod table info (setter name type span) = .ok tokens) :
    ∃ field written, identifier name = .ok field ∧ lowerType type = .ok written ∧
      tokens = setterTokens (accessorName .setter name) field written := by
  obtain ⟨called, params, front, body, named, given, returned, inside, rfl⟩ :=
    lowerMethod_eq_ok.mp lowered
  obtain ⟨param, _, parameter, last, rfl⟩ :=
    List.forall₂_cons_left_iff.mp (Lowered.mapM_eq_ok.mp given)
  obtain rfl := List.forall₂_nil_left_iff.mp last
  obtain ⟨field, fieldNamed, parameter⟩ := Lowered.bind_eq_ok.mp parameter
  obtain ⟨written, typeWritten, parameter⟩ := Lowered.bind_eq_ok.mp parameter
  obtain rfl := Except.ok.inj parameter
  rw [lowerBody_setter rfl, fieldNamed] at inside
  obtain rfl := Except.ok.inj inside
  obtain rfl := Except.ok.inj returned
  obtain rfl := identifier_eq_accessorName named
  have fixed : binding ⟨table, some info, .borrowed, (setter name type span).body⟩ name field = [field] :=
    if_neg (by rw [Context.isMutable, writesVariable_setter]; decide)
  refine ⟨field, written, fieldNamed, typeWritten, ?_⟩
  rw [fixed]
  simp [setter, writes, receiverTokens, setterTokens, visibility, ended, Tokens.commaSeparated,
    Tokens.separated, Tokens.word, Tokens.mark]

/-! ### Accessors that are there -/

theorem lowerClassMethod_of_erase {left right : Method} (same : left.erase = right.erase) :
    lowerClassMethod table info left = lowerClassMethod table info right := by
  rw [← lowerClassMethod_canonical table info left, ← lowerClassMethod_canonical table info right,
    ← left.canonical_erase, same, right.canonical_erase]

theorem writesThis_of_erase {isMutating : String → Bool} {left right : Method}
    (same : left.erase = right.erase) :
    writesThis isMutating left.body = writesThis isMutating right.body := by
  have bodies : Stmt.canonicalAll left.body = Stmt.canonicalAll right.body :=
    calc Stmt.canonicalAll left.body
      _ = left.erase.canonical.body := congrArg Method.body left.canonical_erase.symm
      _ = right.erase.canonical.body := by rw [same]
      _ = Stmt.canonicalAll right.body := congrArg Method.body right.canonical_erase
  rw [writesThis, writesThis, ← bodyWrites_canonical left.body, bodies, bodyWrites_canonical]

variable {decl : Class} {method : Method}

theorem functionName?_lowerClassMethod (lowered : lowerClassMethod table info method = .ok tokens) :
    functionName? tokens = some (.word (identifierSpelling method.name)) := by
  obtain ⟨called, named, shaped⟩ := isFunction_lowerClassMethod lowered
  rw [shaped.named, identifier_eq_ok named]

/-- Of the functions of a class there is exactly one with the name of an accessor. -/
theorem functions_of_has {own : Implementation} {kind : AccessorKind} {field : String}
    (implements : Implements table decl own)
    (apart : (decl.methods.map Method.name).Nodup) (there : decl.Has method)
    (named : method.name = accessorName kind field) :
    ∃ info tokens, table.find? decl.name = some info ∧
      lowerClassMethod table info method = .ok tokens ∧
      functions (.word (accessorName kind field)) own.functions.flatten = [tokens] := by
  obtain ⟨present, inside, same⟩ := there
  have sameName : present.erase.name = method.erase.name := congrArg Method.name same
  have presentName : present.name = accessorName kind field := sameName.trans named
  have only : decl.methods.filter (·.name == accessorName kind field) = [present] :=
    presentName ▸ filter_of_nodup_map apart inside
  have each : ∀ function ∈ own.functions, IsItem function := by
    intro function held
    obtain ⟨_, shaped⟩ := implements.isFunction function held
    exact shaped.item
  obtain ⟨info, new, methods, found, built, lowered, whole⟩ := implements.lowered
  have related : List.Forall₂ (fun method tokens => lowerClassMethod table info method = .ok tokens)
      (decl.methods.filter (·.name == accessorName kind field))
      (methods.filter (functionName? · == some (.word (accessorName kind field)))) := by
    refine List.rel_filter ?_ (Lowered.mapM_eq_ok.mp lowered)
    intro method tokens lowered
    simp [functionName?_lowerClassMethod lowered, identifierSpelling_eq_accessorName]
  rw [only] at related
  obtain ⟨tokens, _, here, last, result⟩ := List.forall₂_cons_left_iff.mp related
  obtain rfl := List.forall₂_nil_left_iff.mp last
  have builder : new.filter (functionName? · == some (.word (accessorName kind field))) = [] := by
    refine List.filter_eq_nil_iff.mpr fun function held => ?_
    rw [(isFunction_lowerNew built function held).named]
    have unlike : "new" ≠ accessorName kind field := ne_accessorName (by cases kind <;> decide) field
    simpa using unlike
  refine ⟨info, tokens, found, (lowerClassMethod_of_erase same).symm.trans here, ?_⟩
  rw [functions_flatten _ each, whole, List.filter_append, builder, result, List.nil_append]

/-- With names of their own the methods of a class are noted one by one. -/
theorem mem_mutators_of_has {classes : List Class} (least : ClassTable.LeastWriters classes table)
    (inside : decl ∈ classes) (apart : (decl.methods.map Method.name).Nodup)
    (there : decl.Has method) (found : table.find? decl.name = some info) :
    method.name ∈ info.mutators ↔ writesThis table.isMutating method.body = true := by
  obtain ⟨present, held, same⟩ := there
  have sameName : present.erase.name = method.erase.name := congrArg Method.name same
  obtain ⟨noted, again, rule⟩ := least.rule decl inside
  obtain rfl := Option.some.inj (again.symm.trans found)
  rw [rule, ← writesThis_of_erase same]
  constructor
  · rintro ⟨other, there, named, writes⟩
    obtain rfl := List.inj_on_of_nodup_map apart there held (named.trans sameName.symm)
    exact writes
  · exact fun writes => ⟨present, held, sameName, writes⟩

/-- With names of their own no field hides the type of another one. -/
theorem lookup_knownTypes {fields : List FieldMember} {entry : FieldMember}
    (apart : (fields.map (·.field.name)).Nodup) (inside : entry ∈ fields) :
    (knownTypes fields).lookup entry.field.name = knownType? entry.field := by
  obtain ⟨before, after, rfl, others⟩ := exists_append_of_nodup_map apart inside
  have none (part : List FieldMember) (inside : ∀ other ∈ part, other ∈ before ++ after) :
      (part.filterMap namedType?).reverse.lookup entry.field.name = none := by
    rw [List.lookup_eq_none_iff]
    intro known held
    obtain ⟨other, there, same⟩ := List.mem_filterMap.mp (List.mem_reverse.mp held)
    obtain ⟨type, _, rfl⟩ := Option.map_eq_some_iff.mp same
    simpa using (others other (inside other there)).symm
  rw [knownTypes_eq_reverse, List.filterMap_append, List.filterMap_cons, namedType?]
  cases knownType? entry.field <;>
    simp [List.lookup_append, none before fun _ => List.mem_append_left _,
      none after fun _ => List.mem_append_right _]

/-! ### Classes at addresses -/

theorem mem_memberTrees {found : Class} {member : Member} {members : List Member}
    (inside : member ∈ members) (below : found ∈ memberTree member) : found ∈ memberTrees members := by
  induction members with
  | nil => cases inside
  | cons first rest ih =>
      rw [memberTrees]
      rcases List.mem_cons.mp inside with rfl | later
      · exact List.mem_append_left _ below
      · exact List.mem_append_right _ (ih later)

theorem classTree_eq_cons (decl : Class) : classTree decl = decl :: memberTrees decl.members := by
  cases decl
  rfl

theorem mem_classTree_of_descend? {decl found : Class} {path : Path}
    (reached : decl.descend? path = some found) : found ∈ classTree decl := by
  rw [classTree_eq_cons]
  induction path generalizing decl with
  | nil =>
      obtain rfl := Option.some.inj reached
      exact List.mem_cons_self
  | cons index rest ih =>
      obtain ⟨nested, held, below⟩ := Option.bind_eq_some_iff.mp reached
      obtain ⟨member, there, isNested⟩ := Option.bind_eq_some_iff.mp held
      cases member with
      | nested span inner =>
          obtain rfl := Option.some.inj isNested
          refine List.mem_cons_of_mem _ (mem_memberTrees (List.mem_of_getElem? there) ?_)
          rw [memberTree, classTree_eq_cons]
          exact ih below
      | _ => cases isNested

theorem mem_allClasses_of_classAt? {program : Program} {path : Path} {decl : Class}
    (reached : program.classAt? path = some decl) : decl ∈ allClasses program := by
  cases path with
  | nil => cases reached
  | cons index rest =>
      obtain ⟨outer, held, below⟩ := Option.bind_eq_some_iff.mp reached
      obtain ⟨declaration, there, isClass⟩ := Option.bind_eq_some_iff.mp held
      exact List.mem_flatMap.mpr ⟨outer,
        List.mem_filterMap.mpr ⟨declaration, List.mem_of_getElem? there, isClass⟩,
        mem_classTree_of_descend? below⟩

/-! ### What the pass leaves -/

/-- A marked class of a program that the pass has been run over without an error has all its
accessors. -/
theorem provided_of_expand {settings : Settings} {source : String} {result : Run}
    (expanded : expand settings source = .ok result) (quiet : result.hasErrors = false)
    (marked : IsMarked (.ofText settings.marker) result.program decl) :
    Provided settings.policy decl := by
  obtain ⟨program, read, rfl⟩ := exists_of_expand expanded
  have writable := Program.writable_of_ofSource read
  rcases Nat.eq_zero_or_pos settings.maxRounds with stopped | allowed
  · -- Without a round an error is reported as soon as anything is marked.
    rw [run, stopped, runFrom, freshElements_nil] at marked quiet
    cases found : tagged (.ofText settings.marker) program with
    | nil =>
        rw [found] at marked
        obtain ⟨_, ⟨element, inside, _⟩, _⟩ := isMarked_iff.mp marked
        rw [found] at inside
        cases inside
    | cons first rest =>
        rw [found] at quiet
        cases quiet
  · obtain ⟨result, _, reported⟩ := run_results allowed program
    rw [result] at marked
    rw [Run.hasErrors, reported] at quiet
    obtain ⟨_, entry, inside, fields, methods⟩ := exists_of_isMarked_round marked
    exact provided_of_quiet (writable.classAt? (classAt?_of_mem_taggedClasses inside))
      (anyError_round_iff.mp quiet entry inside) fields methods

/-! ### Accessors in the block of a class -/

theorem lowerType_erase (type : TypeRef) : lowerType type.erase = lowerType type := by
  rw [← lowerType_canonical, type.canonical_erase, lowerType_canonical]

theorem fieldType?_of_found {classes : List Class} {entry : FieldMember}
    (about : table.About classes) (declared : decl ∈ classes)
    (found : table.find? decl.name = some info)
    (apart : (decl.fields.map (·.field.name)).Nodup) (inside : entry ∈ decl.fields) :
    info.fieldType? entry.field.name = knownType? entry.field := by
  obtain ⟨marked, again⟩ := about.found decl declared
  obtain rfl := Option.some.inj (again.symm.trans found)
  exact lookup_knownTypes apart inside

theorem functions_of_provided {classes : List Class} {own : Implementation} {entry : FieldMember}
    (about : table.About classes) (least : ClassTable.LeastWriters classes table)
    (declared : decl ∈ classes) (implements : Implements table decl own)
    (provided : Provided .error decl)
    (fieldsApart : (decl.fields.map (·.field.name)).Nodup)
    (methodsApart : (decl.methods.map Method.name).Nodup) (inside : entry ∈ decl.fields) :
    ∃ type field written, entry.field.type = some type ∧ identifier entry.field.name = .ok field ∧
      lowerType type = .ok written ∧
      functions (.word (accessorName .getter entry.field.name)) own.functions.flatten =
        [getterTokens (accessorName .getter entry.field.name) field written (isCopyType type)] ∧
      functions (.word (accessorName .setter entry.field.name)) own.functions.flatten =
        [setterTokens (accessorName .setter entry.field.name) field written] := by
  obtain ⟨_, typed, accessible, both⟩ := provided entry.outline (List.mem_map_of_mem inside)
  obtain ⟨type, given, rfl⟩ := Option.map_eq_some_iff.mp typed
  obtain ⟨hasGetter, hasSetter⟩ := both rfl
  obtain ⟨info, getterText, found, getterLowered, getterOnly⟩ :=
    functions_of_has implements methodsApart hasGetter rfl
  obtain ⟨again, setterText, foundAgain, setterLowered, setterOnly⟩ :=
    functions_of_has implements methodsApart hasSetter rfl
  obtain rfl := Option.some.inj (foundAgain.symm.trans found)
  have known : again.fieldType? entry.field.name = some type := by
    rw [fieldType?_of_found about declared found fieldsApart inside, knownType?, given]
  have reads : accessorName .getter entry.field.name ∉ again.mutators := by
    refine (mem_mutators_of_has least declared methodsApart hasGetter found).not.mpr ?_
    rw [writesThis_getter]
    decide
  have writes : accessorName .setter entry.field.name ∈ again.mutators :=
    (mem_mutators_of_has least declared methodsApart hasSetter found).mpr (writesThis_setter _)
  obtain ⟨field, written, named, typeWritten, rfl⟩ :=
    lowerClassMethod_getter accessible.value known reads getterLowered
  obtain ⟨field', written', named', typeWritten', rfl⟩ :=
    lowerClassMethod_setter writes setterLowered
  obtain rfl := Except.ok.inj (named'.symm.trans named)
  obtain rfl := Except.ok.inj (typeWritten'.symm.trans typeWritten)
  rw [lowerType_erase] at typeWritten
  exact ⟨type, field', written', given, named, typeWritten, getterOnly, setterOnly⟩

theorem exists_append_of_forall₂ {α β : Type} {holds : α → β → Prop} {before after : List α} {value : α}
    {results : List β} (related : List.Forall₂ holds (before ++ value :: after) results) :
    ∃ front result back, results = front ++ result :: back ∧ List.Forall₂ holds before front ∧
      holds value result ∧ List.Forall₂ holds after back := by
  induction before generalizing results with
  | nil =>
      obtain ⟨result, back, here, later, rfl⟩ := List.forall₂_cons_left_iff.mp related
      exact ⟨[], result, back, rfl, .nil, here, later⟩
  | cons first rest ih =>
      obtain ⟨other, behind, here, later, rfl⟩ := List.forall₂_cons_left_iff.mp related
      obtain ⟨front, result, back, rfl, beforeThat, this, afterThat⟩ := ih later
      exact ⟨other :: front, result, back, rfl, .cons here beforeThat, this, afterThat⟩

theorem filterMap_block?_eq_nil {others : List Class} {owns : List Implementation} {name : TargetToken}
    (related : List.Forall₂ (Implements table) others owns)
    (none : ∀ other ∈ others, identifier other.name ≠ .ok name) :
    owns.filterMap (Implementation.block? name) = [] := by
  induction related with
  | nil => rfl
  | @cons other own _ _ implements _ ih =>
      obtain ⟨here, later⟩ := List.forall_mem_cons.mp none
      have different : own.name ≠ name := fun same => here (implements.named.trans (congrArg _ same))
      rw [List.filterMap_cons, Implementation.block?, if_neg fun both => different both.1, ih later]

/-- The block of a class that has functions is one of the blocks of its type, and the only one if no
other class is lowered to that type. -/
theorem block_of_lower {options : EmitOptions} {program : Program} {file : TargetFile}
    (lowered : Emitter.lowerProgram ⟨options, table⟩ program = .ok file)
    (about : table.About (allClasses program)) (declared : decl ∈ allClasses program) :
    ∃ own, Implements table decl own ∧ (own.functions.isEmpty = false →
      own.functions.flatten ∈ implementations own.name file.tokens ∧
      ((∀ other ∈ allClasses program, identifier other.name = .ok own.name → other.name = decl.name) →
        implementations own.name file.tokens = [own.functions.flatten])) := by
  obtain ⟨before, after, split, others⟩ := exists_append_of_nodup_map about.apart declared
  obtain ⟨owns, related, blocks⟩ := implementations_lower lowered
  rw [split] at related ⊢
  obtain ⟨front, own, back, rfl, earlier, implements, later⟩ := exists_append_of_forall₂ related
  refine ⟨own, implements, fun filled => ?_⟩
  have block : own.block? own.name = some own.functions.flatten := if_pos ⟨rfl, filled⟩
  rw [blocks, List.filterMap_append, List.filterMap_cons, block]
  refine ⟨List.mem_append_right _ List.mem_cons_self, fun alone => ?_⟩
  have none (other : Class) (held : other ∈ before ++ after) : identifier other.name ≠ .ok own.name :=
    fun same => others other held (alone other (List.mem_append.mpr
      ((List.mem_append.mp held).imp_right (List.mem_cons_of_mem _))) same)
  rw [filterMap_block?_eq_nil earlier fun other held => none other (List.mem_append_left _ held),
    filterMap_block?_eq_nil later fun other held => none other (List.mem_append_right _ held)]
  rfl

/-- The accessors of a field in generated code. The implementation of a marked class stands in a block
of its type, the only one unless another class is lowered to the same type. The block has exactly one
function with the name of the getter and one with that of the setter. The getter borrows its receiver
and clones what it gives back unless the type of the field is copied, and the setter may change its
receiver, whatever other methods and other classes there are. -/
theorem emit_accessors {settings : Settings} {source : String} {result : Run}
    {emitter : Emitter} {file : TargetFile} {entry : FieldMember}
    (strict : settings.policy = .error) (expanded : expand settings source = .ok result)
    (quiet : result.hasErrors = false) (emitted : (emitter.emit result.program).1 = .ok file)
    (marked : IsMarked (.ofText settings.marker) result.program decl)
    (fieldsApart : (decl.fields.map (·.field.name)).Nodup)
    (methodsApart : (decl.methods.map Method.name).Nodup) (inside : entry ∈ decl.fields) :
    ∃ table own type field written, emitter.table.collect result.program = (table, none) ∧
      Implements table decl own ∧
      own.functions.flatten ∈ implementations own.name file.tokens ∧
      ((∀ other ∈ allClasses result.program, identifier other.name = .ok own.name →
        other.name = decl.name) → implementations own.name file.tokens = [own.functions.flatten]) ∧
      entry.field.type = some type ∧ identifier entry.field.name = .ok field ∧
      lowerType type = .ok written ∧
      functions (.word (accessorName .getter entry.field.name)) own.functions.flatten =
        [getterTokens (accessorName .getter entry.field.name) field written (isCopyType type)] ∧
      functions (.word (accessorName .setter entry.field.name)) own.functions.flatten =
        [setterTokens (accessorName .setter entry.field.name) field written] := by
  obtain ⟨path, _, reached⟩ := isMarked_iff.mp marked
  have declared : decl ∈ allClasses result.program := mem_allClasses_of_classAt? reached
  have provided : Provided .error decl := strict ▸ provided_of_expand expanded quiet marked
  obtain ⟨table, collected, lowered⟩ := emit_eq_ok emitted
  obtain ⟨about, least⟩ := ClassTable.collect_about collected
  obtain ⟨own, implements, placed⟩ := block_of_lower lowered about declared
  obtain ⟨type, field, written, typed, named, typeWritten, getter, setter⟩ :=
    functions_of_provided about least declared implements provided fieldsApart methodsApart inside
  have filled : own.functions.isEmpty = false := by
    cases empty : own.functions with
    | nil => simp [empty, functions, items, itemsFrom] at getter
    | cons first rest => rfl
  obtain ⟨member, alone⟩ := placed filled
  exact ⟨table, own, type, field, written, collected, implements, member, alone, typed, named,
    typeWritten, getter, setter⟩

/-- A class with a field whose name is a reserved word, and with a method that changes its receiver
through the accessors of this field. -/
def personText : List Char :=
  "@Data class Person \x7b type: str; fn renew() \x7b this.setType(this.getType()); \x7d \x7d".toList

/-- What the accessors of a field are made of. -/
def accessorParts (entry : FieldMember) : String × Option (Option Tokens × Bool) :=
  (entry.field.name, entry.field.type.map fun type => ((lowerType type).toOption, isCopyType type))

/-- Whether a class is the one of this text, with its accessors. -/
def isPerson (entry : TaggedClass) : Bool :=
  entry.decl.name == "Person" &&
    decide (entry.decl.fields.map accessorParts = [("type", some (some [.word "String"], false))]) &&
    decide (entry.decl.methods.map Method.name = ["renew", "getType", "setType"])

theorem emit_accessors_person : ∃ result file block,
    expand .standard (.ofList personText) = .ok result ∧ result.hasErrors = false ∧
      ((Emitter.fresh .standard).emit result.program).1 = .ok file ∧
      implementations (.word "Person") file.tokens = [block] ∧
      functions (.word "getType") block =
        [getterTokens "getType" (.word "r#type") [.word "String"] false] ∧
      functions (.word "setType") block = [setterTokens "setType" (.word "r#type") [.word "String"]] := by
  let check (result : Run) : Bool :=
    !result.hasErrors && ((Emitter.fresh .standard).emit result.program).1.toOption.isSome &&
      (allClasses result.program).all (·.name == "Person") &&
      (taggedClasses result.program (tagged (.ofText defaultMarker) result.program)).any isPerson
  obtain ⟨result, expanded, passed⟩ : ∃ result, expand .standard (.ofList personText) = .ok result ∧
      check result = true := exists_expanded check (by decide +kernel) (by decide +kernel)
  simp only [check, Bool.and_eq_true, List.any_eq_true, List.all_eq_true] at passed
  obtain ⟨⟨⟨quiet, emits⟩, only⟩, marked, inside, person⟩ := passed
  simp only [isPerson, Bool.and_eq_true, decide_eq_true_eq, beq_iff_eq] at person only
  obtain ⟨⟨named, fields⟩, methods⟩ := person
  obtain ⟨entry, single, parts⟩ := List.map_eq_singleton_iff.mp fields
  obtain ⟨called, typed⟩ := Prod.mk.inj parts
  have quiet : result.hasErrors = false := by simpa using quiet
  cases emitted : ((Emitter.fresh .standard).emit result.program).1 with
  | error fault => rw [emitted] at emits; cases emits
  | ok file =>
      obtain ⟨_, own, type, field, written, _, implements, _, alone, given, fieldNamed, typeWritten,
        getter, setter⟩ :=
        emit_accessors rfl expanded quiet emitted ⟨marked, inside, rfl⟩ (by simp [single])
          (by rw [methods]; decide) (single ▸ List.mem_singleton_self entry)
      rw [called] at fieldNamed getter setter
      have ownName := implements.named
      rw [named] at ownName alone
      obtain rfl := Except.ok.inj fieldNamed
      have ownName : .word "Person" = own.name := Except.ok.inj ownName
      rw [← ownName] at alone
      simp only [given, typeWritten, Option.map_some, Option.some.injEq, Prod.mk.injEq] at typed
      obtain ⟨text, cloned⟩ := typed
      obtain rfl := Option.some.inj text
      rw [cloned] at getter
      exact ⟨result, file, _, expanded, quiet, emitted, alone fun other there _ => only other there,
        getter, setter⟩

end DataClass.Lowering
