import DataClass.Proofs.Lowering.Accessors
import DataClass.Proofs.Lowering.Code
namespace DataClass.Lowering

open Target

/-! Writes hit the place that they are for. What is assigned to, or changed by a method, is the place of
the program itself, and all that has to be mutable for it is. -/

/-- A function as it is written. -/
structure Routine where
  isPublic : Bool
  name : String
  /-- Whether the receiver may be changed, if there is one. -/
  receiver : Option Bool
  params : List (Binding × Tokens)
  returnType : Tokens
  /-- What stands in front of the lowered body. -/
  start : List Code
  code : List Code
  /-- What stands behind the lowered body. -/
  result : Tokens

namespace Routine

def paramTokens (param : Binding × Tokens) : Tokens := param.1.tokens ++ .mark ":" :: param.2

def tokens (routine : Routine) : Tokens :=
  visibility routine.isPublic ++ .word "fn" :: .word routine.name ::
    Tokens.inParens (Tokens.commaSeparated
      (routine.receiver.toList.map receiverTokens ++ routine.params.map paramTokens)) ++
    routine.returnType ++
    Tokens.inBraces (Code.tokensAll routine.start ++ Code.tokensAll routine.code ++ routine.result)

end Routine

/-- A function whose writes are those of a body, to the same places in their order, and in which each
variable that the body writes to may be changed. -/
structure WritesInPlace (context : Context) (params : List Param) (routine : Routine) : Prop where
  lowered : lowerCodes context context.body = .ok routine.code
  writes : AllKept context.receiver (bodyPlaces context.table.isMutating context.body)
    (Code.writesAll routine.code)
  bindings : List.Forall₂ (Binds context) (bodyLets context.body) (Code.declaredAll routine.code)
  params : List.Forall₂ (Binds context) (params.map (·.name)) (routine.params.map (·.1))

/-! ### Functions -/

variable {context : Context}

theorem writesInPlace {params : List Param} {routine : Routine}
    (lowered : lowerCodes context context.body = .ok routine.code)
    (given : List.Forall₂ (Binds context) (params.map (·.name)) (routine.params.map (·.1))) :
    WritesInPlace context params routine := by
  have follows := follows_lowerCodes context.body lowered
  exact ⟨lowered, follows.writes, follows.bindings, given⟩

theorem exists_params_of_lowerParams {params : List Param} {parts : List Tokens}
    (lowered : lowerParams context params = .ok parts) :
    ∃ bound : List (Binding × Tokens), bound.map Routine.paramTokens = parts ∧
      List.Forall₂ (Binds context) (params.map (·.name)) (bound.map (·.1)) := by
  have each := Lowered.mapM_eq_ok.mp lowered
  clear lowered
  induction each with
  | nil => exact ⟨[], rfl, .nil⟩
  | @cons param part _ _ lowered _ ih =>
      obtain ⟨bound, same, related⟩ := ih
      obtain ⟨token, named, lowered⟩ := Lowered.bind_eq_ok.mp lowered
      obtain ⟨type, _, lowered⟩ := Lowered.bind_eq_ok.mp lowered
      obtain rfl := Except.ok.inj lowered
      obtain ⟨word, spelled, rfl⟩ := exists_spelledName_of_identifier named
      exact ⟨(⟨context.isMutable param.name, word⟩, type) :: bound, by rw [List.map_cons, same]; rfl,
        .cons ⟨spelled, isMutable_iff⟩ related⟩

theorem exists_routine_of_lowerMethod (receiver : Option Bool) {method : Method} {tokens : Tokens}
    (own : context.body = method.body)
    (lowered : lowerMethod context (receiver.toList.map receiverTokens) method = .ok tokens) :
    ∃ routine : Routine, routine.tokens = tokens ∧ spelledName method.name = .ok routine.name ∧
      routine.receiver = receiver ∧ WritesInPlace context method.params routine := by
  obtain ⟨name, params, front, body, named, given, typed, inside, rfl⟩ := lowerMethod_eq_ok.mp lowered
  obtain ⟨code, grown, rfl⟩ := exists_code_of_lowerBody inside
  obtain ⟨bound, rfl, related⟩ := exists_params_of_lowerParams given
  obtain ⟨word, spelled, rfl⟩ := exists_spelledName_of_identifier named
  rw [← own] at grown
  refine ⟨⟨method.isPublic, word, receiver, bound, front, [], code, []⟩, ?_, spelled, rfl,
    writesInPlace grown related⟩
  rw [Routine.tokens, Code.tokensAll, List.nil_append, List.append_nil]

variable {table : ClassTable} {info : ClassInfo}

/-- The value being built, which is mutable, as it is declared in front of the body of a constructor. -/
def builtStart : Code := .declare ⟨true, "this"⟩ [] (some (.call (.path "Self" ["default"]) []))

theorem exists_routine_of_lowerBuilder {isPublic : Bool} {params : List Param} {body : List Stmt}
    {tokens : Tokens} (lowered : lowerBuilder table info isPublic params body = .ok tokens) :
    ∃ routine : Routine, routine.tokens = tokens ∧ routine.name = "new" ∧
      routine.start = [builtStart] ∧ WritesInPlace ⟨table, some info, .built, body⟩ params routine := by
  obtain ⟨parts, given, lowered⟩ := Lowered.bind_eq_ok.mp lowered
  obtain ⟨stmts, inside, lowered⟩ := Lowered.bind_eq_ok.mp lowered
  obtain rfl := Except.ok.inj lowered
  obtain ⟨code, grown, rfl⟩ := exists_code_of_lowerBody inside
  obtain ⟨bound, rfl, related⟩ := exists_params_of_lowerParams given
  refine ⟨⟨isPublic, "new", none, bound, [.mark "->", .word "Self"], [builtStart], code, [.word "this"]⟩,
    ?_, rfl, rfl, writesInPlace grown related⟩
  simp [Routine.tokens, builtStart, Code.tokensAll, Code.tokens, Binding.tokens, Tree.tokens,
    Tree.segmentTokens, Tree.tokensAll, Tokens.mark, Tokens.commaSeparated, Tokens.separated, ended]

/-! ### Where they are written -/

/-- The parameters of the constructors of a class. -/
def builderParams (decl : Class) : List Param :=
  (decl.members.filterMap Member.constructor?).flatMap (·.params)

/-- The bodies of the initializers and of the constructors of a class, one behind the other. -/
def builderBody (decl : Class) : List Stmt :=
  (decl.members.filterMap Member.initializer?).flatten ++
    (decl.members.filterMap Member.constructor?).flatMap (·.body)

theorem exists_lowerBuilder_of_lowerNew {decl : Class} {functions : List Tokens}
    (builds : info.hasNew = true) (lowered : lowerNew table info decl = .ok functions) :
    ∃ isPublic, ∃ tokens ∈ functions,
      lowerBuilder table info isPublic (builderParams decl) (builderBody decl) = .ok tokens := by
  unfold lowerNew at lowered
  rw [if_pos builds] at lowered
  dsimp only at lowered
  unfold builderParams builderBody
  split at lowered
  · next none =>
    obtain ⟨tokens, built, lowered⟩ := Lowered.bind_eq_ok.mp lowered
    obtain rfl := Except.ok.inj lowered
    exact ⟨true, tokens, List.mem_cons_self, by rw [none]; simpa using built⟩
  · next constructor single =>
    obtain ⟨tokens, built, lowered⟩ := Lowered.bind_eq_ok.mp lowered
    obtain rfl := Except.ok.inj lowered
    exact ⟨constructor.isPublic, tokens, List.mem_cons_self, by rw [single]; simpa using built⟩
  · cases lowered

theorem exists_mem_of_forall₂ {α β : Type} {holds : α → β → Prop} {values : List α} {results : List β}
    (related : List.Forall₂ holds values results) {value : α} (listed : value ∈ values) :
    ∃ result ∈ results, holds value result := by
  obtain ⟨before, after, rfl⟩ := List.append_of_mem listed
  obtain ⟨front, result, back, rfl, _, here, _⟩ := exists_append_of_forall₂ related
  exact ⟨result, List.mem_append_right front List.mem_cons_self, here⟩

/-- A function outside of all classes is written as an item of the file. -/
theorem mem_items_of_function {options : EmitOptions} {program : Program} {file : TargetFile}
    (lowered : Emitter.lowerProgram ⟨options, table⟩ program = .ok file) {span : Span} {method : Method}
    (listed : .function span method ∈ program.declarations) :
    ∃ tokens ∈ items file.tokens, lowerFunction table method = .ok tokens := by
  obtain ⟨parts, each, lowered⟩ := Lowered.bind_eq_ok.mp lowered
  obtain rfl := Except.ok.inj lowered
  obtain ⟨before, after, split⟩ := List.append_of_mem listed
  have related := Lowered.mapM_eq_ok.mp each
  rw [split] at related
  obtain ⟨front, tokens, back, rfl, earlier, here, _⟩ := exists_append_of_forall₂ related
  have inFront : Itemized table (before.flatMap declaredClasses) front.flatten :=
    .flatten (earlier.imp fun _ _ => itemized_lowerDeclaration)
  obtain ⟨cut, _, same, isItem, _⟩ := (itemized_lintAllowances options.lintAllowances).append inFront
  obtain ⟨_, _, function⟩ := isFunction_lowerMethod (by simp) here
  refine ⟨tokens, ?_, here⟩
  rw [List.flatten_append, List.flatten_cons, ← List.append_assoc, ← same, items_flatten isItem,
    function.item]
  exact List.mem_append_right _ List.mem_cons_self

/-- Tokens are a function in an implementation of the type that a class is lowered to. -/
def IsMember (file : TargetFile) (decl : Class) (tokens : Tokens) : Prop :=
  ∃ name block, identifier decl.name = .ok name ∧ block ∈ implementations name file.tokens ∧
    tokens ∈ items block

theorem Implements.isMember {decl : Class} {own : Implementation} {file : TargetFile} {tokens : Tokens}
    (implements : Implements table decl own)
    (placed : own.functions.isEmpty = false →
      own.functions.flatten ∈ implementations own.name file.tokens)
    (listed : tokens ∈ own.functions) : IsMember file decl tokens := by
  have filled : own.functions.isEmpty = false := by
    cases empty : own.functions with
    | nil => rw [empty] at listed; cases listed
    | cons first rest => rfl
  refine ⟨own.name, own.functions.flatten, implements.named, placed filled, ?_⟩
  have cut := items_flatten (fun function inside => by
    obtain ⟨_, shaped⟩ := implements.isFunction function inside
    exact shaped.item) []
  rw [List.append_nil] at cut
  rw [cut]
  exact List.mem_append_left _ listed

/-- Writes hit the place that they are for. Whenever a program can be lowered, each of its functions, of
the methods of its classes, and the initializers and the constructor of a class together, is written as
one function. In it every assignment to a place and every call of a mutating method on one, anywhere in
the body, stands for the same place: its root with the same fields read off it. A variable is declared
mutable, as a parameter or in the body, exactly if the body writes to a place of it. A method may change its
receiver exactly if it, or another method of its class with its name, writes to a place of `this`. -/
theorem emit_writesInPlace {emitter : Emitter} {program : Program} {file : TargetFile}
    (emitted : (emitter.emit program).1 = .ok file) :
    ∃ table, emitter.table.collect program = (table, none) ∧
      (∀ span method, .function span method ∈ program.declarations → ∃ routine : Routine,
        routine.tokens ∈ items file.tokens ∧ spelledName method.name = .ok routine.name ∧
        routine.receiver = none ∧
        WritesInPlace ⟨table, none, .absent, method.body⟩ method.params routine) ∧
      ∀ decl ∈ allClasses program, ∃ info, table.find? decl.name = some info ∧
        (∀ method ∈ decl.methods, ∃ (routine : Routine) (changes : Bool),
          IsMember file decl routine.tokens ∧ spelledName method.name = .ok routine.name ∧
          routine.receiver = some changes ∧
          WritesInPlace ⟨table, some info, .borrowed, method.body⟩ method.params routine ∧
          (changes = true ↔ ∃ other ∈ decl.methods, other.name = method.name ∧
            ∃ write ∈ bodyPlaces table.isMutating other.body, root? write.place = some .this)) ∧
        (decl.members.any isBuilder = true → ∃ routine : Routine,
          IsMember file decl routine.tokens ∧ routine.name = "new" ∧ routine.start = [builtStart] ∧
          WritesInPlace ⟨table, some info, .built, builderBody decl⟩ (builderParams decl) routine) := by
  obtain ⟨table, collected, lowered⟩ := emit_eq_ok emitted
  obtain ⟨about, least⟩ := ClassTable.collect_about collected
  refine ⟨table, collected, fun span method listed => ?_, fun decl declared => ?_⟩
  · obtain ⟨tokens, item, written⟩ := mem_items_of_function lowered listed
    obtain ⟨routine, rfl, named, alone, inPlace⟩ :=
      exists_routine_of_lowerMethod none rfl written
    exact ⟨routine, item, named, alone, inPlace⟩
  obtain ⟨own, implements, placed⟩ := block_of_lower lowered about declared
  obtain ⟨info, new, methods, found, built, each, functions⟩ := implements.lowered
  have member {tokens : Tokens} (listed : tokens ∈ new ++ methods) : IsMember file decl tokens :=
    implements.isMember (fun filled => (placed filled).1) (functions ▸ listed)
  refine ⟨info, found, fun method inside => ?_, fun builds => ?_⟩
  · obtain ⟨tokens, listed, written⟩ :=
      exists_mem_of_forall₂ (Lowered.mapM_eq_ok.mp each) inside
    obtain ⟨routine, rfl, named, borrows, inPlace⟩ :=
      exists_routine_of_lowerMethod (some (info.mutators.contains method.name)) rfl written
    refine ⟨routine, _, member (List.mem_append_right new listed), named, borrows, inPlace, ?_⟩
    obtain ⟨known, foundToo, rule⟩ := least.rule decl declared
    obtain rfl := Option.some.inj (foundToo.symm.trans found)
    simp only [List.contains_iff_mem, rule, writesThis, mem_bodyWrites]
  · obtain ⟨marked, known⟩ := about.found decl declared
    obtain rfl := Option.some.inj (known.symm.trans found)
    obtain ⟨isPublic, tokens, listed, written⟩ := exists_lowerBuilder_of_lowerNew builds built
    obtain ⟨routine, rfl, named, start, inPlace⟩ := exists_routine_of_lowerBuilder written
    exact ⟨routine, member (List.mem_append_left methods listed), named, start, inPlace⟩

/-- A method that changes a field of `this` behind parentheses, a variable, and not its parameter. -/
def fillMethod : Method :=
  let int : TypeRef := .named .origin ["Int"] []
  let items : Expr := .paren .origin (.field .origin (.this .origin) "items")
  ⟨[], true, "fill", [⟨.origin, "count", int⟩], .void .origin, [
    .declare .origin "total" (some int) (some (.ident .origin "count")),
    .assign .origin (.ident .origin "total") (.int .origin 1),
    .evaluate .origin (.methodCall .origin items "push" [.ident .origin "total"])]⟩

def fillClass : Class :=
  ⟨[], true, "Box", [
    .field .origin ⟨[], true, "items", some (.array .origin (.named .origin ["Int"] [])), none⟩,
    .method .origin fillMethod]⟩

theorem emit_writesInPlace_fill :
    ∃ file, ((Emitter.fresh .standard).emit ⟨[.type .origin fillClass]⟩).1 = .ok file ∧
      ∃ routine : Routine, IsMember file fillClass routine.tokens ∧ routine.receiver = some true ∧
        .call (.paren (.field (.path "self" []) "items")) "push" ∈ Code.writesAll routine.code ∧
        Code.declaredAll routine.code = [⟨true, "total"⟩] ∧
        routine.params.map (·.1) = [⟨false, "count"⟩] := by
  have emits : ((Emitter.fresh .standard).emit ⟨[.type .origin fillClass]⟩).1.toOption.isSome = true := by
    decide +kernel
  cases emitted : ((Emitter.fresh .standard).emit ⟨[.type .origin fillClass]⟩).1 with
  | error fault => rw [emitted] at emits; cases emits
  | ok file =>
      obtain ⟨table, _, _, classes⟩ := emit_writesInPlace emitted
      obtain ⟨info, _, methods, _⟩ := classes fillClass List.mem_cons_self
      obtain ⟨routine, changes, member, _, receiver, inPlace, writesThis⟩ :=
        methods fillMethod List.mem_cons_self
      let context : Context := ⟨table, some info, .borrowed, fillMethod.body⟩
      have places : bodyPlaces context.table.isMutating context.body =
          [.assign (.ident .origin "total"),
            .call (.paren .origin (.field .origin (.this .origin) "items")) "push"] := rfl
      have assigned := places ▸ List.mem_cons_self
      have pushed := places ▸ List.mem_cons_of_mem _ List.mem_cons_self
      obtain rfl : changes = true := writesThis.mpr ⟨fillMethod, List.mem_cons_self, rfl, _, pushed, rfl⟩
      have kept : .call (.paren (.field (.path "self" []) "items")) "push" ∈
          Code.writesAll routine.code := by
        obtain ⟨other, listed, same⟩ := inPlace.writes.exists_of_mem pushed
        cases same with | call place spelled
        cases place with | paren inside
        cases inside with | field base named
        cases base with | this known
        obtain rfl := Except.ok.inj known
        obtain rfl := Except.ok.inj named
        obtain rfl := Except.ok.inj spelled
        exact listed
      have unwritten (binding : Binding) (bound : Binds context "count" binding) :
          binding.isMutable = false := by
        refine Bool.eq_false_iff.mpr fun written => ?_
        obtain ⟨write, inside, rooted⟩ := bound.isMutable.mp written
        rw [places] at inside
        rcases List.mem_pair.mp inside with rfl | rfl
        · exact absurd rooted (by decide)
        · exact absurd rooted (by decide)
      have total : spelledName "total" = .ok "total" := rfl
      have count : spelledName "count" = .ok "count" := rfl
      obtain ⟨first, _, bound, none, bindings⟩ := List.forall₂_cons_left_iff.mp inPlace.bindings
      obtain ⟨param, _, given, noOther, params⟩ := List.forall₂_cons_left_iff.mp inPlace.params
      obtain rfl := List.forall₂_nil_left_iff.mp none
      obtain rfl := List.forall₂_nil_left_iff.mp noOther
      refine ⟨file, rfl, routine, member, receiver, kept, ?_, ?_⟩
      · rw [bindings, bound.eq_mk total (bound.isMutable.mpr ⟨_, assigned, rfl⟩)]
      · rw [params, given.eq_mk count (unwritten _ given)]

end DataClass.Lowering
