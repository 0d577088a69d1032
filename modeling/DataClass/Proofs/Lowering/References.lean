import DataClass.Proofs.Lowering.Names
import DataClass.Proofs.Lowering.Routines
import DataClass.Proofs.Lowering.Supported
namespace DataClass.Lowering

open Target

/-! What the name of a class is written as. The structure of the class and the calls that build its
values take the name as it is, and a type reference is looked up among the builtin types first. So a
class that has the name of a builtin type is written by another name where it stands as a type. -/

variable {table : ClassTable} {context : Context} {usage : Usage} {tokens : Tokens} {name : String}

/-! ### As a type -/

/-- The spellings of builtin types without arguments that are not written as they are. -/
def renamedSpellings : List String :=
  ["Int", "int", "Long", "long", "Float", "float", "Double", "double", "Bool", "boolean", "Boolean", "str"]

/-- The word that a type reference of one segment without arguments is lowered to. -/
def referenceWord (name : String) : TargetToken :=
  match BuiltinType.ofSpelling? name with
  | some type => .word (type.targetPath.headD "")
  | none => .word (identifierSpelling name)

/-- A builtin type without arguments is a single word, and its spelling is that word unless it is listed
as renamed. -/
theorem plainBuiltin {type : BuiltinType} (plain : type.arity = 0) :
    Tokens.path (type.targetPath.map .word) = [.word (type.targetPath.headD "")] ∧
      ∀ spelling ∈ type.canonical :: type.aliases,
        type.targetPath.headD "" = identifierSpelling spelling ↔ spelling ∉ renamedSpellings := by
  cases type with
  | int | float | bool | string => decide
  | list | map | set | option => cases plain

/-- A type reference of one segment without arguments is lowered to one word. That is the name itself
unless it is one of the renamed spellings. -/
theorem lowerType_reference {span : Span} (lowered : lowerType (.named span [name] []) = .ok tokens) :
    tokens = [referenceWord name] ∧
      (referenceWord name = .word (identifierSpelling name) ↔ name ∉ renamedSpellings) := by
  obtain ⟨arguments, given, lowered⟩ := Lowered.bind_eq_ok.mp lowered
  obtain rfl := Except.ok.inj given
  obtain ⟨path, written, lowered⟩ := Lowered.bind_eq_ok.mp lowered
  obtain rfl := Except.ok.inj lowered
  change path = _ ∧ _
  unfold typePath builtin? at written
  unfold referenceWord
  cases found : BuiltinType.ofSpelling? name with
  | some type =>
      simp only [found, List.length_nil] at written
      split at written
      · next plain =>
        obtain ⟨single, renamed⟩ := plainBuiltin plain
        obtain rfl := Except.ok.inj written
        refine ⟨single, ?_⟩
        rw [TargetToken.word.injEq]
        exact renamed name (BuiltinType.ofSpelling?_eq_some_iff.mp found)
      · cases written
  | none =>
      simp only [found] at written
      obtain ⟨segments, named, written⟩ := Lowered.bind_eq_ok.mp written
      obtain rfl := Except.ok.inj written
      obtain ⟨token, single, rest⟩ := Lowered.bind_eq_ok.mp named
      obtain rfl := Except.ok.inj rest
      obtain ⟨_, rfl⟩ := isIdentifier_of_identifier single
      have builtin : ∀ spelling ∈ renamedSpellings, BuiltinType.ofSpelling? spelling ≠ none := by decide
      exact ⟨rfl, iff_of_true rfl fun listed => builtin name listed found⟩

theorem infix_separated {separator part : Tokens} {parts : List Tokens} (inside : part ∈ parts) :
    part <:+: Tokens.separated separator parts := by
  induction parts with
  | nil => cases inside
  | cons first rest ih =>
      cases rest with
      | nil => rw [List.mem_singleton.mp inside]; exact List.infix_rfl
      | cons second rest =>
          rw [Tokens.separated, List.append_assoc]
          swap; · simp
          rcases List.mem_cons.mp inside with rfl | later
          · exact (List.prefix_append _ _).isInfix
          · exact ((ih later).trans (List.suffix_append _ _).isInfix).trans (List.suffix_append _ _).isInfix

theorem infix_withArguments {path part : Tokens} {arguments : List Tokens} (inside : part ∈ arguments) :
    part <:+: withArguments path arguments := by
  have some : arguments.isEmpty = false := by cases arguments <;> simp_all
  rw [withArguments, some, if_neg Bool.false_ne_true]
  exact ((infix_separated inside).trans (List.suffix_append _ _).isInfix).trans
    (List.prefix_append _ _).isInfix

mutual

/-- A type that stands inside of another one is lowered to a part of what that one is lowered to. -/
theorem lowerType_inside {inner : TypeRef} : (type : TypeRef) → .type inner ∈ typeNodes type →
    ∀ {tokens}, lowerType type = .ok tokens →
      ∃ part, lowerType inner = .ok part ∧ part <:+: tokens
  | .named span path arguments, inside, tokens, lowered => by
      rw [typeNodes] at inside
      rcases List.mem_cons.mp inside with same | inside
      · obtain rfl := Node.type.inj same
        exact ⟨tokens, lowered, List.infix_rfl⟩
      rcases List.mem_append.mp inside with inside | named
      · rw [lowerType] at lowered
        obtain ⟨parts, given, lowered⟩ := Lowered.bind_eq_ok.mp lowered
        obtain ⟨path, _, lowered⟩ := Lowered.bind_eq_ok.mp lowered
        obtain rfl := Except.ok.inj lowered
        obtain ⟨part, there, whole, listed, within⟩ := lowerTypes_inside arguments inside given
        exact ⟨part, there, within.trans (infix_withArguments listed)⟩
      · unfold pathNodes at named
        split at named <;> simp at named
  | .array span element, inside, tokens, lowered => by
      rcases List.mem_cons.mp inside with same | inside
      · obtain rfl := Node.type.inj same
        exact ⟨tokens, lowered, List.infix_rfl⟩
      · rw [lowerType] at lowered
        obtain ⟨whole, there, lowered⟩ := Lowered.bind_eq_ok.mp lowered
        obtain rfl := Except.ok.inj lowered
        obtain ⟨part, found, within⟩ := lowerType_inside element inside there
        exact ⟨part, found, (within.trans (List.suffix_append _ _).isInfix).trans
          (List.prefix_append _ _).isInfix⟩
  | .void span, inside, tokens, lowered => by
      obtain rfl := Node.type.inj (List.mem_singleton.mp inside)
      exact ⟨tokens, lowered, List.infix_rfl⟩

theorem lowerTypes_inside {inner : TypeRef} : (types : List TypeRef) → .type inner ∈ typesNodes types →
    ∀ {wholes}, lowerTypes types = .ok wholes →
      ∃ part, lowerType inner = .ok part ∧ ∃ whole ∈ wholes, part <:+: whole
  | [], inside, _, _ => by cases inside
  | type :: rest, inside, wholes, lowered => by
      rw [lowerTypes] at lowered
      obtain ⟨first, here, lowered⟩ := Lowered.bind_eq_ok.mp lowered
      obtain ⟨later, there, lowered⟩ := Lowered.bind_eq_ok.mp lowered
      obtain rfl := Except.ok.inj lowered
      rcases List.mem_append.mp inside with inside | inside
      · obtain ⟨part, found, within⟩ := lowerType_inside type inside here
        exact ⟨part, found, first, List.mem_cons_self, within⟩
      · obtain ⟨part, found, whole, listed, within⟩ := lowerTypes_inside rest inside there
        exact ⟨part, found, whole, List.mem_cons_of_mem _ listed, within⟩

end

/-! ### As a structure -/

/-- The items of what is lowered side by side are those of its parts. -/
theorem Itemized.items_append {classes : List Class} (itemized : Itemized table classes tokens)
    (rest : Tokens) : items (tokens ++ rest) = items tokens ++ items rest := by
  obtain ⟨parts, _, rfl, each, _⟩ := itemized
  have whole := items_flatten each []
  rw [List.append_nil] at whole
  rw [items_flatten each, whole]
  exact congrArg (· ++ items rest) (List.append_nil parts).symm

theorem mem_items_flatten {item part : Tokens} {parts : List Tokens}
    (each : ∀ part ∈ parts, ∃ classes, Itemized table classes part) (inside : item ∈ items part)
    (listed : part ∈ parts) : item ∈ items parts.flatten := by
  induction parts with
  | nil => cases listed
  | cons first rest ih =>
      obtain ⟨⟨classes, itemized⟩, later⟩ := List.forall_mem_cons.mp each
      rw [List.flatten_cons, itemized.items_append]
      rcases List.mem_cons.mp listed with rfl | behind
      · exact List.mem_append_left _ inside
      · exact List.mem_append_right _ (ih later behind)

/-- The structure of each class is an item of the lowered program. -/
theorem structureTokens_mem_items {options : EmitOptions} {program : Program} {file : TargetFile}
    (lowered : Emitter.lowerProgram ⟨options, table⟩ program = .ok file) {decl : Class}
    (declared : decl ∈ allClasses program) :
    ∃ name fields, identifier decl.name = .ok name ∧
      structureTokens decl name fields ∈ items file.tokens := by
  obtain ⟨parts, each, lowered⟩ := Lowered.bind_eq_ok.mp lowered
  obtain rfl := Except.ok.inj lowered
  have each := Lowered.mapM_eq_ok.mp each
  rw [allClasses_eq_flatMap] at declared
  obtain ⟨declaration, listed, declared⟩ := List.mem_flatMap.mp declared
  obtain ⟨part, held, written⟩ := exists_mem_of_forall₂ each listed
  cases declaration with
  | importPath span path => cases declared
  | function span method => cases declared
  | type span outer =>
      obtain ⟨classes, inside, written⟩ := Lowered.bind_eq_ok.mp written
      obtain rfl := Except.ok.inj written
      have inside := Lowered.mapM_eq_ok.mp inside
      obtain ⟨tokens, placed, written⟩ := exists_mem_of_forall₂ inside declared
      obtain ⟨mark, name, fields, later, named, cut⟩ := items_lowerClass written
      have own : structureTokens decl name fields ∈ items tokens := by
        rw [cut]
        exact List.mem_cons_of_mem _ List.mem_cons_self
      have allowances : Itemized table [] _ := itemized_lintAllowances options.lintAllowances
      have itemized : ∀ part ∈ parts, ∃ classes, Itemized table classes part :=
        forall_mem_of_forall₂ each fun _ _ lowered => ⟨_, itemized_lowerDeclaration lowered⟩
      have nested : ∀ part ∈ classes, ∃ classes, Itemized table classes part :=
        forall_mem_of_forall₂ inside fun _ _ lowered => ⟨_, itemized_lowerClass lowered⟩
      refine ⟨name, fields, named, ?_⟩
      rw [allowances.items_append]
      exact List.mem_append_right _
        (mem_items_flatten itemized (mem_items_flatten nested own placed) held)

theorem declaredName?_structureTokens {decl : Class} {token : TargetToken} {fields : List LoweredField}
    (named : identifier decl.name = .ok token) :
    declaredName? (structureTokens decl token fields) = some token := by
  obtain ⟨_, rfl⟩ := isIdentifier_of_identifier named
  rw [structureTokens, declaredName?_visibility, declaredName?_reserved (by decide),
    declaredName?_name]

/-! ### In a call -/

/-- What a call that builds a value of a class is written as. -/
def constructionTokens (decl : Class) (name : TargetToken) (arguments : List Tokens) : Tokens :=
  name :: .mark "::" :: .word (if decl.members.any isBuilder then "new" else "default") ::
    Tokens.inParens (Tokens.commaSeparated arguments)

theorem lowerConstruction_eq_ok {info : ClassInfo} {token : TargetToken} {arguments : List Tokens}
    (named : identifier info.name = .ok token) (lowered : lowerConstruction info arguments = .ok tokens) :
    tokens = token :: .mark "::" :: .word (if info.hasNew then "new" else "default") ::
      Tokens.inParens (Tokens.commaSeparated arguments) := by
  obtain ⟨other, again, lowered⟩ := Lowered.bind_eq_ok.mp lowered
  obtain rfl : token = other := Except.ok.inj (named.symm.trans again)
  cases builds : info.hasNew with
  | true =>
      rw [builds, if_pos rfl] at lowered
      exact (Except.ok.inj lowered).symm
  | false =>
      rw [builds, if_neg Bool.false_ne_true] at lowered
      split at lowered
      · next none =>
        rw [List.isEmpty_iff.mp none]
        exact (Except.ok.inj lowered).symm
      · cases lowered

theorem lowerExpr_construction {classes : List Class} {decl : Class} {token : TargetToken}
    (about : context.table.About classes) (declared : decl ∈ classes)
    (named : identifier decl.name = .ok token) {span place : Span} {arguments : List Expr}
    (lowered : lowerExpr context usage (.call span (.ident place decl.name) arguments) = .ok tokens) :
    ∃ parts, lowerExprs context arguments = .ok parts ∧
      tokens = constructionTokens decl token parts := by
  obtain ⟨marked, found⟩ := about.found decl declared
  rw [lowerExpr] at lowered
  obtain ⟨parts, given, lowered⟩ := Lowered.bind_eq_ok.mp lowered
  simp only [calledClass?, found] at lowered
  exact ⟨parts, given, lowerConstruction_eq_ok named lowered⟩

/-! ### In a declaration -/

/-- The type of a declared variable stands in front of its value. -/
theorem lowerStmt_declare {span : Span} {label : String} {type : TypeRef} {value : Expr}
    (lowered : lowerStmt context (.declare span label (some type) (some value)) = .ok tokens) :
    ∃ head written valued, lowerType type = .ok written ∧ lowerExpr context .value value = .ok valued ∧
      tokens = ended (head ++ .mark ":" :: (written ++ .mark "=" :: valued)) := by
  obtain ⟨token, _, lowered⟩ := Lowered.bind_eq_ok.mp lowered
  obtain ⟨suffix, typed, lowered⟩ := Lowered.bind_eq_ok.mp lowered
  obtain ⟨valued, there, lowered⟩ := Lowered.bind_eq_ok.mp lowered
  obtain ⟨written, here, typed⟩ := Lowered.bind_eq_ok.mp typed
  obtain rfl := Except.ok.inj typed
  obtain rfl := Except.ok.inj lowered
  exact ⟨.word "let" :: binding context label token, written, valued, here, there, by simp⟩

/-! ### Together -/

/-- The type reference that consists of the name of a class. -/
def classReference (span : Span) (decl : Class) : TypeRef := .named span [decl.name] []

/-- The call that builds a value of a class. -/
def classCall (span place : Span) (decl : Class) (arguments : List Expr) : Expr :=
  .call span (.ident place decl.name) arguments

theorem lowerType_classReference {decl : Class} {token : TargetToken} {span : Span}
    (named : identifier decl.name = .ok token)
    (fits : Node.Fits table (.type (classReference span decl))) :
    ∃ tokens, lowerType (classReference span decl) = .ok tokens := by
  refine (hinges_lowerType table (classReference span decl)).succeeds.mpr ?_
  rw [classReference, typeNodes, typesNodes, List.nil_append, allFit_cons]
  refine ⟨fits, ?_⟩
  unfold pathNodes
  split
  · exact allFit_nil
  · exact List.forall_mem_singleton.mpr ⟨token, named⟩

/-- The name of a class as a structure, in calls and as a type. Whenever a program can be lowered, there
is a structure for each of its classes, and its name is what each call that builds a value of the class
begins with. A reference to the class is a single word, wherever it stands in a type. It is the name of
the structure as well, unless the class has one of the twelve spellings of builtin types that are written
by other names, and then a variable is declared with one type and given a value of another one. -/
theorem emit_classNames {emitter : Emitter} {program : Program} {file : TargetFile}
    (emitted : (emitter.emit program).1 = .ok file) {decl : Class}
    (declared : decl ∈ allClasses program) :
    ∃ table name fields, emitter.table.collect program = (table, none) ∧
      identifier decl.name = .ok name ∧
      structureTokens decl name fields ∈ items file.tokens ∧
      declaredName? (structureTokens decl name fields) = some name ∧
      (∀ context usage span place arguments tokens, context.table = table →
        lowerExpr context usage (classCall span place decl arguments) = .ok tokens →
        ∃ parts, lowerExprs context arguments = .ok parts ∧
          tokens = constructionTokens decl name parts) ∧
      (∀ span type tokens, .type (classReference span decl) ∈ typeNodes type →
        lowerType type = .ok tokens → ∃ word, lowerType (classReference span decl) = .ok [word] ∧
          [word] <:+: tokens ∧ (word = name ↔ decl.name ∉ renamedSpellings)) ∧
      (FieldsApart program → ∀ span, .type (classReference span decl) ∈ programNodes program →
        ∃ word, lowerType (classReference span decl) = .ok [word]) ∧
      ∀ context span typeSpan valueSpan place label arguments tokens, context.table = table →
        lowerStmt context (.declare span label (some (classReference typeSpan decl))
          (some (classCall valueSpan place decl arguments))) = .ok tokens →
        ∃ head word parts,
          tokens = ended (head ++ .mark ":" :: word :: .mark "=" :: constructionTokens decl name parts) ∧
          (word = name ↔ decl.name ∉ renamedSpellings) := by
  obtain ⟨table, collected, lowered⟩ := emit_eq_ok emitted
  obtain ⟨about, _⟩ := ClassTable.collect_about collected
  obtain ⟨name, fields, named, structured⟩ := structureTokens_mem_items lowered declared
  have called : ∀ context usage span place arguments tokens, context.table = table →
      lowerExpr context usage (classCall span place decl arguments) = .ok tokens →
      ∃ parts, lowerExprs context arguments = .ok parts ∧
        tokens = constructionTokens decl name parts := by
    rintro context usage span place arguments tokens rfl lowered
    exact lowerExpr_construction about declared named lowered
  have referred : ∀ span tokens, lowerType (classReference span decl) = .ok tokens →
      ∃ word, tokens = [word] ∧ (word = name ↔ decl.name ∉ renamedSpellings) := by
    intro span tokens lowered
    obtain ⟨_, rfl⟩ := isIdentifier_of_identifier named
    obtain ⟨same, renamed⟩ := lowerType_reference lowered
    exact ⟨_, same, renamed⟩
  refine ⟨table, name, fields, collected, named, structured, declaredName?_structureTokens named, called,
    fun span type tokens inside lowered => ?_, fun apart span inside => ?_, ?_⟩
  · obtain ⟨part, there, within⟩ := lowerType_inside type inside lowered
    obtain ⟨word, rfl, renamed⟩ := referred span part there
    exact ⟨word, there, within, renamed⟩
  · obtain ⟨_, fits⟩ := (hinges_lowerProgram about apart).succeeds.mp ⟨file, lowered⟩
    obtain ⟨tokens, there⟩ := lowerType_classReference named (fits _ inside)
    obtain ⟨word, rfl, _⟩ := referred span tokens there
    exact ⟨word, there⟩
  · intro context span typeSpan valueSpan place label arguments tokens known lowered
    obtain ⟨head, type, value, there, valued, rfl⟩ := lowerStmt_declare lowered
    obtain ⟨word, rfl, renamed⟩ := referred typeSpan type there
    obtain ⟨parts, _, rfl⟩ := called context _ valueSpan place arguments value known valued
    exact ⟨head, word, parts, rfl, renamed⟩

/-- A class with the name of a builtin type, and a function that builds a value of it. -/
def intClassText : String := "class Int \x7b\x7d fn f() \x7b let x: Int = Int(); \x7d"

/-- The beginning of `let x: i64 = Int::default();`. -/
def intTokens : Tokens :=
  [.word "let", .word "x", .mark ":", .word "i64", .mark "=", .word "Int", .mark "::", .word "default"]

/-- The variable is declared as a number and gets a value of the class. -/
theorem emit_classNames_int :
    ∃ program file decl, Program.ofSource intClassText = .ok program ∧
      ((Emitter.fresh ⟨false, false⟩).emit program).1 = .ok file ∧ decl ∈ allClasses program ∧
      intTokens <:+: file.tokens ∧
      ∃ name word, identifier decl.name = .ok name ∧
        lowerType (classReference .origin decl) = .ok [word] ∧ word ≠ name := by
  let written (program : Program) : Bool :=
    match ((Emitter.fresh ⟨false, false⟩).emit program).1 with
    | .ok file => decide (intTokens <:+: file.tokens)
    | .error _ => false
  obtain ⟨program, parsed, passed⟩ : ∃ program, Program.ofSource intClassText = .ok program ∧
      (decide ((allClasses program).map (·.name) = ["Int"]) && written program) = true :=
    Program.exists_read _ (by decide +kernel)
  simp only [written, Bool.and_eq_true, decide_eq_true_eq] at passed
  obtain ⟨classes, within⟩ := passed
  obtain ⟨decl, single, called⟩ := List.map_eq_singleton_iff.mp classes
  split at within
  swap; · cases within
  next file emitted =>
    have declared : decl ∈ allClasses program := single ▸ List.mem_singleton_self decl
    have lowered : lowerType (classReference .origin decl) = .ok [.word "i64"] := by
      rw [classReference, called]
      rfl
    obtain ⟨_, name, _, _, named, _, _, _, types, _⟩ := emit_classNames emitted declared
    obtain ⟨word, same, _, renamed⟩ :=
      types .origin (classReference .origin decl) _ (by simp [classReference, typeNodes]) lowered
    have other : word ≠ name := mt renamed.mp (by rw [called]; decide)
    exact ⟨program, file, decl, parsed, emitted, declared, of_decide_eq_true within,
      name, word, named, same, other⟩

end DataClass.Lowering
