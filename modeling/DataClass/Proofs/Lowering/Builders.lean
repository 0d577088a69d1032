import DataClass.Proofs.Lowering.Routines
import DataClass.Proofs.Target.Scope
namespace DataClass.Lowering

open Target

/-! The function that builds a value of a class is spliced together: the statements of the initializers
come first and those of the constructor last, all of them in one block. So what an initializer declares is
in scope behind it, and where it returns nothing behind it is reached. -/

/-- A name is written as a word. -/
def Spells (name word : String) : Prop := spelledName name = .ok word

/-! ### Scopes of the source -/

/-- The variables that statements declare for what stands behind them, the latest first. -/
def outerLets : List Stmt → List String
  | [] => []
  | .declare _ name _ _ :: rest => outerLets rest ++ [name]
  | .assign _ _ _ :: rest | .giveBack _ _ :: rest | .choose _ _ _ _ :: rest
  | .repeatWhile _ _ _ :: rest | .evaluate _ _ :: rest => outerLets rest

mutual

/-- The variables in scope in a statement and in each one inside of it, the innermost first. -/
def stmtScopes (outer : List String) : Stmt → List (List String)
  | .choose _ _ thenBody none => outer :: bodyScopes outer thenBody
  | .choose _ _ thenBody (some elseBody) =>
      outer :: (bodyScopes outer thenBody ++ bodyScopes outer elseBody)
  | .repeatWhile _ _ body => outer :: bodyScopes outer body
  | .declare _ _ _ _ | .assign _ _ _ | .giveBack _ _ | .evaluate _ _ => [outer]

def bodyScopes (outer : List String) : List Stmt → List (List String)
  | [] => []
  | stmt :: rest => stmtScopes outer stmt ++ bodyScopes (outerLets [stmt] ++ outer) rest

end

mutual

/-- Whether there is a `return` at any depth. -/
def stmtReturns : Stmt → Bool
  | .giveBack _ _ => true
  | .choose _ _ thenBody none => bodyReturns thenBody
  | .choose _ _ thenBody (some elseBody) => bodyReturns thenBody || bodyReturns elseBody
  | .repeatWhile _ _ body => bodyReturns body
  | .declare _ _ _ _ | .assign _ _ _ | .evaluate _ _ => false

def bodyReturns : List Stmt → Bool
  | [] => false
  | stmt :: rest => stmtReturns stmt || bodyReturns rest

end

/-! ### Lowering keeps them -/

variable {context : Context}

/-- A statement has been lowered with its variables where they are and with its returns. -/
structure Mirrors (stmt : Stmt) (code : Code) : Prop where
  bound : List.Forall₂ Spells (outerLets [stmt]) (Code.bound [code])
  scopes : ∀ {outer words}, List.Forall₂ Spells outer words →
    List.Forall₂ (List.Forall₂ Spells) (stmtScopes outer stmt) (code.scopes words)
  returns : code.returns = stmtReturns stmt

structure MirrorsAll (body : List Stmt) (code : List Code) : Prop where
  bound : List.Forall₂ Spells (outerLets body) (Code.bound code)
  scopes : ∀ {outer words}, List.Forall₂ Spells outer words →
    List.Forall₂ (List.Forall₂ Spells) (bodyScopes outer body) (Code.scopesAll words code)
  returns : Code.returnsAny code = bodyReturns body

theorem outerLets_cons (stmt : Stmt) (rest : List Stmt) :
    outerLets (stmt :: rest) = outerLets rest ++ outerLets [stmt] := by
  cases stmt <;> simp [outerLets]

mutual

theorem mirrors_lowerCode : (stmt : Stmt) → ∀ {code}, lowerCode context stmt = .ok code →
    Mirrors stmt code
  | .declare _ _ _ _, _, lowered => by
      cases becomes_of_lowerCode lowered with
      | declare _ spelled => exact ⟨.cons spelled .nil, fun outer => .cons outer .nil, rfl⟩
  | .assign _ _ _, _, lowered => by
      cases becomes_of_lowerCode lowered with
      | assign => exact ⟨.nil, fun outer => .cons outer .nil, rfl⟩
  | .giveBack _ _, _, lowered => by
      cases becomes_of_lowerCode lowered with
      | finish => exact ⟨.nil, fun outer => .cons outer .nil, rfl⟩
      | leave => exact ⟨.nil, fun outer => .cons outer .nil, rfl⟩
      | giveBack => exact ⟨.nil, fun outer => .cons outer .nil, rfl⟩
  | .choose _ _ thenBody none, _, lowered => by
      -- What a branch declares is gone behind it, so only the scopes inside are related.
      cases becomes_of_lowerCode lowered with
      | choose _ _ yes =>
          have inside := mirrors_lowerCodes thenBody yes
          exact ⟨.nil, fun outer => .cons outer (inside.scopes outer), inside.returns⟩
  | .choose _ _ thenBody (some elseBody), _, lowered => by
      cases becomes_of_lowerCode lowered with
      | chooseElse _ _ yes no =>
          have inside := mirrors_lowerCodes thenBody yes
          have otherwise := mirrors_lowerCodes elseBody no
          exact ⟨.nil,
            fun outer => .cons outer (List.rel_append (inside.scopes outer) (otherwise.scopes outer)),
            congrArg₂ or inside.returns otherwise.returns⟩
  | .repeatWhile _ _ body, _, lowered => by
      cases becomes_of_lowerCode lowered with
      | repeatWhile _ _ within =>
          have inside := mirrors_lowerCodes body within
          exact ⟨.nil, fun outer => .cons outer (inside.scopes outer), inside.returns⟩
  | .evaluate _ _, _, lowered => by
      cases becomes_of_lowerCode lowered with
      | evaluate => exact ⟨.nil, fun outer => .cons outer .nil, rfl⟩

theorem mirrors_lowerCodes : (body : List Stmt) → ∀ {code}, lowerCodes context body = .ok code →
    MirrorsAll body code
  | [], _, lowered => by
      obtain rfl := Except.ok.inj lowered
      exact ⟨.nil, fun _ => .nil, rfl⟩
  | stmt :: rest, _, lowered => by
      obtain ⟨first, later, here, there, rfl⟩ := lowerCodes_cons lowered
      have own := mirrors_lowerCode stmt here
      have behind := mirrors_lowerCodes rest there
      have split : Code.bound (first :: later) = Code.bound later ++ Code.bound [first] :=
        Code.bound_append [first] later
      refine ⟨?_, fun outer => ?_, congrArg₂ or own.returns behind.returns⟩
      · rw [outerLets_cons, split]
        exact List.rel_append behind.bound own.bound
      · exact List.rel_append (own.scopes outer)
          (behind.scopes (List.rel_append own.bound outer))

end

/-! ### One behind the other -/

theorem lowerCodes_append {first second : List Stmt} {code : List Code}
    (lowered : lowerCodes context (first ++ second) = .ok code) :
    ∃ front back, lowerCodes context first = .ok front ∧ lowerCodes context second = .ok back ∧
      code = front ++ back := by
  induction first generalizing code with
  | nil => exact ⟨[], code, rfl, lowered, rfl⟩
  | cons stmt rest ih =>
      obtain ⟨here, later, there, behind, rfl⟩ := lowerCodes_cons lowered
      obtain ⟨front, back, inner, outer, rfl⟩ := ih behind
      exact ⟨here :: front, back, by rw [lowerCodes, there, inner]; rfl, outer, rfl⟩

theorem lowerCodes_flatten {bodies : List (List Stmt)} {code : List Code}
    (lowered : lowerCodes context bodies.flatten = .ok code) :
    ∃ parts, List.Forall₂ (lowerCodes context · = .ok ·) bodies parts ∧ code = parts.flatten := by
  induction bodies generalizing code with
  | nil =>
      obtain rfl := Except.ok.inj lowered
      exact ⟨[], .nil, rfl⟩
  | cons body rest ih =>
      obtain ⟨front, back, here, there, rfl⟩ := lowerCodes_append lowered
      obtain ⟨parts, each, rfl⟩ := ih there
      exact ⟨front :: parts, .cons here each, rfl⟩

/-- The variables in scope where the lowered body of a function begins, the innermost first. -/
def Routine.scope (routine : Routine) : List String :=
  Code.bound routine.start ++ (routine.params.map (·.1.name)).reverse

/-- A function has the parameters of a constructor, and its body is the initializers, one behind the
other, and behind them the body of the constructor. -/
structure Splices (context : Context) (initializers : List (List Stmt)) (constructor : Constructor)
    (routine : Routine) (parts : List (List Code)) (last : List Code) : Prop where
  params : List.Forall₂ Spells (constructor.params.map (·.name)) (routine.params.map (·.1.name))
  initialized : List.Forall₂ (lowerCodes context · = .ok ·) initializers parts
  constructed : lowerCodes context constructor.body = .ok last
  code : routine.code = parts.flatten ++ last

/-- The parts of a body share one scope. -/
structure SharesScope (initializers : List (List Stmt)) (constructor : Constructor)
    (routine : Routine) (parts : List (List Code)) (last : List Code) : Prop where
  /-- What a part declares outside of its blocks is in scope in all parts behind it. -/
  each : ∀ before part behind, parts ++ [last] = before ++ part :: behind →
    Code.scopesAll routine.scope routine.code =
      Code.scopesAll routine.scope before.flatten ++
        (Code.scopesAll (Code.bound before.flatten ++ routine.scope) part ++
          Code.scopesAll (Code.bound (before.flatten ++ part) ++ routine.scope) behind.flatten)
  /-- In the body of the constructor these are its own variables, around them those of the initializers,
  and around them the value being built and the parameters. -/
  constructed : List.Forall₂
    (fun own scope => ∃ words, List.Forall₂ Spells own words ∧
      scope = words ++ (Code.bound parts.flatten ++ routine.scope))
    (bodyScopes [] constructor.body)
    (Code.scopesAll (Code.bound parts.flatten ++ routine.scope) last)
  /-- A name that is none of its own variables denotes the same parameter as without the initializers
  if and only if none of them declares a variable of this name outside of its blocks. -/
  kept : ∀ param ∈ constructor.params, ∀ word, Spells param.name word → ∀ words, word ∉ words →
    (denoted? (words ++ (Code.bound parts.flatten ++ routine.scope)) word =
        denoted? (words ++ routine.scope) word ↔
      ∀ body ∈ initializers, ∀ name ∈ outerLets body, ¬ Spells name word)

/-- The parts of a body are left together. -/
structure SharesReturn (initializers : List (List Stmt)) (routine : Routine)
    (parts : List (List Code)) (last : List Code) : Prop where
  /-- The body of the constructor is reached if all initializers are run through. A part that is left
  is the last one that is reached. -/
  runs : ∀ trace ending, Code.Runs routine.code trace ending ↔
    (∃ traces back, List.Forall₂ (Code.Runs · · .through) parts traces ∧
      Code.Runs last back ending ∧ trace = traces.flatten ++ back) ∨
    ending = .left ∧ ∃ before part behind traces back, parts = before ++ part :: behind ∧
      List.Forall₂ (Code.Runs · · .through) before traces ∧ Code.Runs part back .left ∧
      trace = traces.flatten ++ back
  /-- Only a `return` leaves a part. -/
  silent : List.Forall₂
    (fun body part => bodyReturns body = false →
      ∀ trace ending, Code.Runs part trace ending → ending = .through) initializers parts
  returned : ∀ trace, Code.Runs routine.code trace .left →
    ∃ front value, trace = front ++ [.giveBack value]

section

variable {initializers : List (List Stmt)} {constructor : Constructor} {routine : Routine}
  {parts : List (List Code)} {last : List Code}

theorem Splices.sharesScope
    (splices : Splices context initializers constructor routine parts last) :
    SharesScope initializers constructor routine parts last := by
  refine ⟨fun before part behind cut => ?_, ?_, fun param listed word spelled words other => ?_⟩
  · have whole : routine.code = before.flatten ++ (part ++ behind.flatten) := by
      have joined : (parts ++ [last]).flatten = parts.flatten ++ last := by simp
      rw [splices.code, ← joined, cut]
      simp
    rw [whole, Code.scopesAll_append, Code.scopesAll_append, ← List.append_assoc (Code.bound part),
      ← Code.bound_append]
  · have own := (mirrors_lowerCodes _ splices.constructed).scopes .nil
    have around := Code.scopesAll_append_outer [] (Code.bound parts.flatten ++ routine.scope) last
    rw [List.nil_append] at around
    rw [around, List.forall₂_map_right_iff]
    exact own.imp fun names words spelled => ⟨words, spelled, rfl⟩
  · obtain ⟨written, inside, again⟩ := exists_mem_of_forall₂ splices.params (List.mem_map_of_mem listed)
    obtain rfl := Except.ok.inj (again.symm.trans spelled)
    have among : written ∈ routine.scope :=
      List.mem_append_right _ (List.mem_reverse.mpr inside)
    have bounds : List.Forall₂ (fun body part => List.Forall₂ Spells (outerLets body) (Code.bound part))
        initializers parts :=
      splices.initialized.imp fun body part lowered => (mirrors_lowerCodes body lowered).bound
    rw [denoted?_of_not_mem other, denoted?_of_not_mem other, denoted?_append_iff among,
      Code.mem_bound_flatten]
    -- A name has one word, so a variable of that name is one of that word on the other side.
    refine ⟨fun free body among name declared same => free ?_, fun free ⟨part, among, bound⟩ => ?_⟩
    · obtain ⟨part, there, matched⟩ := exists_mem_of_forall₂ bounds among
      obtain ⟨word, bound, known⟩ := exists_mem_of_forall₂ matched declared
      obtain rfl := Except.ok.inj (known.symm.trans same)
      exact ⟨part, there, bound⟩
    · obtain ⟨body, there, matched⟩ := exists_mem_of_forall₂ bounds.flip among
      obtain ⟨name, declared, known⟩ := exists_mem_of_forall₂ matched.flip bound
      exact free body there name declared known

theorem Splices.sharesReturn
    (splices : Splices context initializers constructor routine parts last) :
    SharesReturn initializers routine parts last := by
  refine ⟨fun trace ending => ?_, ?_, fun trace => Code.Runs.exists_giveBack⟩
  · rw [splices.code]
    exact Code.runs_parts
  · exact splices.initialized.imp fun body part lowered silent trace ending run =>
      run.eq_through ((mirrors_lowerCodes body lowered).returns.trans silent)

end

/-- A class with a constructor that can be lowered has no other one. -/
theorem constructors_of_lowerNew {table : ClassTable} {info : ClassInfo} {decl : Class}
    {functions : List Tokens} (builds : info.hasNew = true)
    (lowered : lowerNew table info decl = .ok functions) {span : Span} {constructor : Constructor}
    (built : .constructor span constructor ∈ decl.members) :
    decl.members.filterMap Member.constructor? = [constructor] := by
  have listed : constructor ∈ decl.members.filterMap Member.constructor? :=
    List.mem_filterMap.mpr ⟨_, built, rfl⟩
  unfold lowerNew at lowered
  rw [if_pos builds] at lowered
  dsimp only at lowered
  split at lowered
  · next none => rw [none] at listed; cases listed
  · next single =>
    rw [single, List.mem_singleton] at listed
    rw [single, listed]
  · cases lowered

/-- A function with the writes of all initializers and of the only constructor is spliced from them. -/
theorem WritesInPlace.exists_splices {table : ClassTable} {info : Option ClassInfo} {decl : Class}
    {constructor : Constructor} {routine : Routine}
    (inPlace : WritesInPlace ⟨table, info, .built, builderBody decl⟩ (builderParams decl) routine)
    (single : decl.members.filterMap Member.constructor? = [constructor]) :
    ∃ parts last, Splices ⟨table, info, .built, builderBody decl⟩
      (decl.members.filterMap Member.initializer?) constructor routine parts last := by
  have params : builderParams decl = constructor.params := by
    rw [builderParams, single, List.flatMap_singleton]
  have given : List.Forall₂ Spells (constructor.params.map (·.name)) (routine.params.map (·.1.name)) := by
    have names : routine.params.map (·.1.name) = (routine.params.map (·.1)).map (·.name) := by
      rw [List.map_map]; rfl
    rw [names, List.forall₂_map_right_iff]
    exact (params ▸ inPlace.params).imp fun _ _ => Binds.spelled
  have body : builderBody decl =
      (decl.members.filterMap Member.initializer?).flatten ++ constructor.body := by
    rw [builderBody, single, List.flatMap_singleton]
  have whole : lowerCodes ⟨table, info, .built, builderBody decl⟩
      ((decl.members.filterMap Member.initializer?).flatten ++ constructor.body) = .ok routine.code := by
    rw [← body]
    exact inPlace.lowered
  obtain ⟨front, last, initialized, constructed, code⟩ := lowerCodes_append whole
  obtain ⟨parts, each, rfl⟩ := lowerCodes_flatten initialized
  exact ⟨parts, last, given, each, constructed, code⟩

/-- Initializers and the constructor of a class are lowered one behind the other, in one scope. A name in
the constructor denotes its parameter if no initializer has a variable of that name outside of its blocks,
and only then. The constructor is reached if no initializer returns. -/
theorem emit_splices {emitter : Emitter} {program : Program} {file : TargetFile}
    (emitted : (emitter.emit program).1 = .ok file) {decl : Class}
    (declared : decl ∈ allClasses program) {span : Span} {constructor : Constructor}
    (built : .constructor span constructor ∈ decl.members) :
    ∃ table info routine parts last, table.find? decl.name = some info ∧
      IsMember file decl routine.tokens ∧ routine.name = "new" ∧ routine.start = [builtStart] ∧
      Splices ⟨table, some info, .built, builderBody decl⟩
        (decl.members.filterMap Member.initializer?) constructor routine parts last ∧
      SharesScope (decl.members.filterMap Member.initializer?) constructor routine parts last ∧
      SharesReturn (decl.members.filterMap Member.initializer?) routine parts last := by
  obtain ⟨table, collected, lowered⟩ := emit_eq_ok emitted
  obtain ⟨about, _⟩ := ClassTable.collect_about collected
  obtain ⟨own, implements, placed⟩ := block_of_lower lowered about declared
  obtain ⟨info, new, methods, found, folded, _, functions⟩ := implements.lowered
  obtain ⟨marked, known⟩ := about.found decl declared
  have builds : info.hasNew = true := by
    rw [Option.some.inj (found.symm.trans known)]
    exact List.any_eq_true.mpr ⟨_, built, rfl⟩
  obtain ⟨isPublic, tokens, listed, written⟩ := exists_lowerBuilder_of_lowerNew builds folded
  obtain ⟨routine, rfl, named, start, inPlace⟩ := exists_routine_of_lowerBuilder written
  have member : IsMember file decl routine.tokens :=
    implements.isMember (fun filled => (placed filled).1)
      (functions ▸ List.mem_append_left methods listed)
  obtain ⟨parts, last, splices⟩ :=
    inPlace.exists_splices (constructors_of_lowerNew builds folded built)
  exact ⟨table, info, routine, parts, last, found, member, named, start, splices, splices.sharesScope,
    splices.sharesReturn⟩

/-- The initializer has a variable with the name of the parameter, and it returns. -/
def cutOffClass : Class :=
  let int : TypeRef := .named .origin ["Int"] []
  ⟨[], true, "Box", [
    .field .origin ⟨[], true, "count", some int, none⟩,
    .initializer .origin [
      .declare .origin "n" (some int) (some (.int .origin 1)),
      .giveBack .origin none],
    .constructor .origin ⟨[], true, [⟨.origin, "n", int⟩], [
      .assign .origin (.field .origin (.this .origin) "count") (.ident .origin "n")]⟩]⟩

theorem emit_splices_cutOff :
    ∃ file, ((Emitter.fresh .standard).emit ⟨[.type .origin cutOffClass]⟩).1 = .ok file ∧
      ∃ (routine : Routine) (first last : List Code), IsMember file cutOffClass routine.tokens ∧
        routine.code = first ++ last ∧
        (∃ scope, Code.scopesAll (Code.bound first ++ routine.scope) last = [scope] ∧
          denoted? scope "n" ≠ denoted? routine.scope "n") ∧
        ∃ trace, Code.Runs routine.code trace .left ∧ ∀ code ∈ last, code ∉ trace := by
  have emits : ((Emitter.fresh .standard).emit ⟨[.type .origin cutOffClass]⟩).1.toOption.isSome = true := by
    decide +kernel
  cases emitted : ((Emitter.fresh .standard).emit ⟨[.type .origin cutOffClass]⟩).1 with
  | error fault => rw [emitted] at emits; cases emits
  | ok file =>
      obtain ⟨table, info, routine, parts, last, _, member, _, _, splices, scopes, returns⟩ :=
        emit_splices emitted List.mem_cons_self
          (List.mem_cons_of_mem _ (List.mem_cons_of_mem _ List.mem_cons_self))
      refine ⟨file, rfl, routine, parts.flatten, last, member, splices.code, ?_, ?_⟩
      · obtain ⟨scope, none, ⟨words, own, rfl⟩, rest, single⟩ :=
          List.forall₂_cons_left_iff.mp scopes.constructed
        obtain rfl := List.forall₂_nil_left_iff.mp rest
        obtain rfl := List.forall₂_nil_left_iff.mp own
        refine ⟨_, single, fun same => ?_⟩
        have free := (scopes.kept _ List.mem_cons_self "n" rfl [] List.not_mem_nil).mp same
        exact free _ List.mem_cons_self "n" List.mem_cons_self rfl
      · obtain ⟨first, _, here, rest, rfl⟩ := List.forall₂_cons_left_iff.mp splices.initialized
        obtain rfl := List.forall₂_nil_left_iff.mp rest
        obtain rfl := Except.ok.inj here
        obtain rfl := Except.ok.inj splices.constructed
        refine ⟨_, (returns.runs _ _).mpr (.inr ⟨rfl, [], _, [], [], _, rfl, .nil,
          .step rfl (.giveBack _ _), rfl⟩), ?_⟩
        simp

end DataClass.Lowering
