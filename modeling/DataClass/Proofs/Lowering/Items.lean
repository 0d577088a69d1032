import Mathlib.Data.List.Forall2
import DataClass.Lowering.Program
import DataClass.Proofs.Lowering.Code
import DataClass.Proofs.Target.Items
namespace DataClass.Lowering

open Target

/-! The items of lowered programs. Every bracket that lowering opens it also closes, so the target
language finds the items that have been lowered: attributes, structures, implementations, functions
and imports, one after another. -/

/-! ### Types, expressions and statements -/

theorem flat_identifier {name : String} {token : TargetToken} (lowered : identifier name = .ok token) :
    Flat [token] := by
  obtain ⟨word, _, rfl⟩ := exists_spelledName_of_identifier lowered
  exact .word word .nil

theorem flat_path {segments : List TargetToken} (each : ∀ segment ∈ segments, Flat [segment]) :
    Flat (Tokens.path segments) :=
  .separated (.token (by decide) (by decide) (by decide) .nil) (List.forall_mem_map.mpr each)

theorem flat_identifiers {names : List String} {tokens : List TargetToken}
    (lowered : identifiers names = .ok tokens) : ∀ token ∈ tokens, Flat [token] := by
  induction names generalizing tokens with
  | nil =>
      obtain rfl := Except.ok.inj lowered
      nofun
  | cons name rest ih =>
      obtain ⟨first, here, lowered⟩ := Lowered.bind_eq_ok.mp lowered
      obtain ⟨later, there, lowered⟩ := Lowered.bind_eq_ok.mp lowered
      obtain rfl := Except.ok.inj lowered
      exact List.forall_mem_cons.mpr ⟨flat_identifier here, ih there⟩

theorem flat_typePath {path : List String} {arguments : Nat} {tokens : Tokens}
    (lowered : typePath path arguments = .ok tokens) : Flat tokens := by
  unfold typePath at lowered
  split at lowered
  · split at lowered
    · obtain rfl := Except.ok.inj lowered
      exact flat_path (List.forall_mem_map.mpr fun segment _ => .word segment .nil)
    · cases lowered
  · obtain ⟨segments, named, lowered⟩ := Lowered.bind_eq_ok.mp lowered
    obtain rfl := Except.ok.inj lowered
    exact flat_path (flat_identifiers named)

theorem flat_withArguments {path : Tokens} {arguments : List Tokens} (flat : Flat path)
    (each : ∀ argument ∈ arguments, Flat argument) : Flat (withArguments path arguments) := by
  have mark (signs : String) (known : signs ∈ ["<", ">", ","]) : Flat (Tokens.mark signs) := by
    simp only [List.mem_cons, List.not_mem_nil, or_false] at known
    rcases known with rfl | rfl | rfl <;> exact .token (by decide) (by decide) (by decide) .nil
  unfold withArguments
  split
  · exact flat
  · exact ((flat.append (mark "<" (by decide))).append (.separated (mark "," (by decide)) each)).append
      (mark ">" (by decide))

mutual

theorem flat_lowerType : (type : TypeRef) → ∀ {tokens}, lowerType type = .ok tokens → Flat tokens
  | .void _, _, lowered => by
      obtain rfl := Except.ok.inj lowered
      exact .parens .nil
  | .array _ element, _, lowered => by
      rw [lowerType] at lowered
      obtain ⟨inner, there, lowered⟩ := Lowered.bind_eq_ok.mp lowered
      obtain rfl := Except.ok.inj lowered
      exact .word _ (.token (by decide) (by decide) (by decide) ((flat_lowerType element there).append
        (.token (by decide) (by decide) (by decide) .nil)))
  | .named _ path arguments, _, lowered => by
      rw [lowerType] at lowered
      obtain ⟨inner, there, lowered⟩ := Lowered.bind_eq_ok.mp lowered
      obtain ⟨front, here, lowered⟩ := Lowered.bind_eq_ok.mp lowered
      obtain rfl := Except.ok.inj lowered
      exact flat_withArguments (flat_typePath here) (flat_lowerTypes arguments there)

theorem flat_lowerTypes : (types : List TypeRef) → ∀ {parts}, lowerTypes types = .ok parts →
    ∀ part ∈ parts, Flat part
  | [], _, lowered => by
      obtain rfl := Except.ok.inj lowered
      nofun
  | type :: rest, _, lowered => by
      rw [lowerTypes] at lowered
      obtain ⟨first, here, lowered⟩ := Lowered.bind_eq_ok.mp lowered
      obtain ⟨later, there, lowered⟩ := Lowered.bind_eq_ok.mp lowered
      obtain rfl := Except.ok.inj lowered
      exact List.forall_mem_cons.mpr ⟨flat_lowerType type here, flat_lowerTypes rest there⟩

end

theorem balanced_mark (signs : String) {rest : Tokens}
    (sign : isOpening (.mark signs) = false ∧ isClosing (.mark signs) = false)
    (later : Balanced rest) : Balanced (.mark signs :: rest) := .token sign.1 sign.2 later

mutual

theorem balanced_tree : (tree : Tree) → Balanced tree.tokens
  | .number _ | .string _ => .token rfl rfl .nil
  | .bool _ => .word _ .nil
  | .path first rest => by
      refine .word first ?_
      induction rest with
      | nil => exact .nil
      | cons segment rest ih => exact balanced_mark "::" (by decide) (.word segment ih)
  | .field base name => (balanced_tree base).append (balanced_mark "." (by decide) (.word name .nil))
  | .call callee arguments =>
      (balanced_tree callee).append (.parens (.commaSeparated (balanced_trees arguments)))
  | .methodCall receiver name arguments =>
      (balanced_tree receiver).append (balanced_mark "." (by decide) (.word name
        (.parens (.commaSeparated (balanced_trees arguments)))))
  | .unary sign operand =>
      balanced_mark _ (by cases sign <;> decide) (balanced_tree operand)
  | .binary left op right =>
      (balanced_tree left).append (balanced_mark _ (by cases op <;> decide) (balanced_tree right))
  | .paren inner => .parens (balanced_tree inner)

theorem balanced_trees : (trees : List Tree) → ∀ part ∈ Tree.tokensAll trees, Balanced part
  | [] => nofun
  | tree :: rest => List.forall_mem_cons.mpr ⟨balanced_tree tree, balanced_trees rest⟩

end

variable {context : Context}

theorem balanced_lowerExpr {usage : Usage} {expr : Expr} {tokens : Tokens}
    (lowered : lowerExpr context usage expr = .ok tokens) : Balanced tokens := by
  obtain ⟨tree, _, rfl⟩ := exists_tree_of_lowerExpr lowered
  exact balanced_tree tree

theorem balanced_ended {tokens : Tokens} (balanced : Balanced tokens) : Balanced (ended tokens) :=
  balanced.append (balanced_mark ";" (by decide) .nil)

theorem flat_binding {name : String} {token : TargetToken} (flat : Flat [token]) :
    Flat (binding context name token) := by
  unfold binding
  split
  · exact .word _ flat
  · exact flat

theorem balanced_binding (binding : Binding) : Balanced binding.tokens := by
  unfold Binding.tokens
  split
  · exact .word _ (.word _ .nil)
  · exact .word _ .nil

theorem balanced_lowerTypeSuffix {type : Option TypeRef} {tokens : Tokens}
    (lowered : lowerTypeSuffix type = .ok tokens) : Balanced tokens := by
  cases type with
  | none =>
      obtain rfl := Except.ok.inj lowered
      exact .nil
  | some type =>
      obtain ⟨inner, there, lowered⟩ := Lowered.bind_eq_ok.mp lowered
      obtain rfl := Except.ok.inj lowered
      exact balanced_mark ":" (by decide) (flat_lowerType type there).balanced

mutual

theorem balanced_lowerCode : (stmt : Stmt) → ∀ {code}, lowerCode context stmt = .ok code →
    Balanced code.tokens
  | .declare _ name _ _, _, lowered => by
      cases becomes_of_lowerCode lowered with
      | @declare _ word _ suffix _ tree _ _ typed =>
          have head : Balanced
              (.word "let" :: (Binding.mk (context.isMutable name) word).tokens ++ suffix) :=
            .word _ ((balanced_binding _).append (balanced_lowerTypeSuffix typed))
          cases tree with
          | none => exact balanced_ended head
          | some tree =>
              exact balanced_ended (head.append (balanced_mark "=" (by decide) (balanced_tree tree)))
  | .assign _ _ _, _, lowered => by
      cases becomes_of_lowerCode lowered with
      | assign =>
          exact balanced_ended
            ((balanced_tree _).append (balanced_mark "=" (by decide) (balanced_tree _)))
  | .giveBack _ _, _, lowered => by
      cases becomes_of_lowerCode lowered with
      | finish => exact balanced_ended (.word _ (balanced_tree _))
      | leave => exact balanced_ended (.word _ .nil)
      | giveBack => exact balanced_ended (.word _ (balanced_tree _))
  | .choose _ _ thenBody none, _, lowered => by
      cases becomes_of_lowerCode lowered with
      | choose _ _ yes =>
          have inside := balanced_lowerCodes thenBody yes
          exact .word _ ((balanced_tree _).append (.braces inside))
  | .choose _ _ thenBody (some elseBody), _, lowered => by
      cases becomes_of_lowerCode lowered with
      | @chooseElse _ test _ _ thenCode elseCode _ _ yes no =>
          have inside := balanced_lowerCodes thenBody yes
          have otherwise := balanced_lowerCodes elseBody no
          have head : Balanced (.word "if" :: test.tokens ++ Tokens.inBraces (Code.tokensAll thenCode)) :=
            .word _ ((balanced_tree test).append (.braces inside))
          rw [Code.tokens]
          refine head.append (.word _ ?_)
          split
          · exact otherwise
          · exact .braces otherwise
  | .repeatWhile _ _ body, _, lowered => by
      cases becomes_of_lowerCode lowered with
      | repeatWhile _ _ within =>
          have inside := balanced_lowerCodes body within
          exact .word _ ((balanced_tree _).append (.braces inside))
  | .evaluate _ _, _, lowered => by
      cases becomes_of_lowerCode lowered with
      | evaluate => exact balanced_ended (balanced_tree _)

theorem balanced_lowerCodes : (body : List Stmt) → ∀ {codes}, lowerCodes context body = .ok codes →
    Balanced (Code.tokensAll codes)
  | [], _, lowered => by
      obtain rfl := Except.ok.inj lowered
      exact .nil
  | stmt :: rest, _, lowered => by
      obtain ⟨first, later, here, there, rfl⟩ := lowerCodes_cons lowered
      exact (balanced_lowerCode stmt here).append (balanced_lowerCodes rest there)

end

theorem balanced_lowerBody {body : List Stmt} {tokens : Tokens}
    (lowered : lowerBody context body = .ok tokens) : Balanced tokens := by
  obtain ⟨codes, grown, rfl⟩ := exists_code_of_lowerBody lowered
  exact balanced_lowerCodes body grown

/-! ### Declarations -/

theorem Lowered.mapM_eq_ok {α β : Type} {step : α → Lowered β} {values : List α} {results : List β} :
    values.mapM step = .ok results ↔
      List.Forall₂ (fun value result => step value = .ok result) values results := by
  induction values generalizing results with
  | nil =>
      rw [List.mapM_nil, List.forall₂_nil_left_iff]
      exact ⟨fun done => (Except.ok.inj done).symm, fun same => same ▸ rfl⟩
  | cons value rest ih =>
      rw [List.mapM_cons, List.forall₂_cons_left_iff]
      constructor
      · intro done
        obtain ⟨first, here, done⟩ := Lowered.bind_eq_ok.mp done
        obtain ⟨later, there, done⟩ := Lowered.bind_eq_ok.mp done
        exact ⟨first, later, here, ih.mp there, (Except.ok.inj done).symm⟩
      · rintro ⟨first, later, here, there, rfl⟩
        rw [here, ih.mpr there]
        rfl

theorem forall_mem_of_forall₂ {α β : Type} {holds : α → β → Prop} {property : β → Prop}
    {values : List α} {results : List β} (related : List.Forall₂ holds values results)
    (each : ∀ value result, holds value result → property result) :
    ∀ result ∈ results, property result := by
  induction related with
  | nil => nofun
  | cons here _ ih => exact List.forall_mem_cons.mpr ⟨each _ _ here, ih⟩

theorem flat_visibility (isPublic : Bool) : Flat (visibility isPublic) := by
  cases isPublic
  · exact .nil
  · exact .word _ .nil

theorem balanced_lowerParams {params : List Param} {parts : List Tokens}
    (lowered : lowerParams context params = .ok parts) : ∀ part ∈ parts, Balanced part := by
  refine forall_mem_of_forall₂ (Lowered.mapM_eq_ok.mp lowered) fun param part lowered => ?_
  obtain ⟨token, named, lowered⟩ := Lowered.bind_eq_ok.mp lowered
  obtain ⟨type, typed, lowered⟩ := Lowered.bind_eq_ok.mp lowered
  obtain rfl := Except.ok.inj lowered
  exact (flat_binding (flat_identifier named)).balanced.append
    (balanced_mark ":" (by decide) (flat_lowerType _ typed).balanced)

theorem flat_lowerReturnType {type : TypeRef} {tokens : Tokens}
    (lowered : lowerReturnType type = .ok tokens) : Flat tokens := by
  unfold lowerReturnType at lowered
  split at lowered
  · obtain rfl := Except.ok.inj lowered
    exact .nil
  · obtain ⟨inner, there, lowered⟩ := Lowered.bind_eq_ok.mp lowered
    obtain rfl := Except.ok.inj lowered
    exact .token (by decide) (by decide) (by decide) (flat_lowerType _ there)

/-- One item, a function with a name. -/
structure IsFunction (name : TargetToken) (tokens : Tokens) : Prop where
  item : IsItem tokens
  balanced : Balanced tokens
  named : functionName? tokens = some name

theorem implementation?_of_functionName? {tokens : Tokens} {name other : TargetToken}
    (named : functionName? tokens = some name) : implementation? other tokens = none := by
  unfold functionName? at named
  split at named
  · rfl
  · rfl
  · cases named

theorem isFunction (isPublic : Bool) {name : TargetToken} {params : List Tokens} {front body : Tokens}
    (flatName : Flat [name]) (balancedParams : ∀ part ∈ params, Balanced part) (flat : Flat front)
    (balanced : Balanced body) :
    IsFunction name (visibility isPublic ++ .word "fn" :: name ::
      Tokens.inParens (Tokens.commaSeparated params) ++ front ++ Tokens.inBraces body) := by
  have head : Flat (name :: Tokens.inParens (Tokens.commaSeparated params) ++ front) :=
    (flatName.append (.parens (.commaSeparated balancedParams))).append flat
  cases isPublic with
  | false => exact ⟨isItem_block "fn" head balanced, .word _ (head.balanced.append balanced.braces), rfl⟩
  | true =>
      exact ⟨isItem_block "pub" (.word "fn" head) balanced,
        .word _ (.word _ (head.balanced.append balanced.braces)), rfl⟩

theorem lowerMethod_eq_ok {receiver : List Tokens} {method : Method} {tokens : Tokens} :
    lowerMethod context receiver method = .ok tokens ↔
      ∃ name params front body, identifier method.name = .ok name ∧
        lowerParams context method.params = .ok params ∧
        lowerReturnType method.returnType = .ok front ∧ lowerBody context method.body = .ok body ∧
        visibility method.isPublic ++ .word "fn" :: name ::
          Tokens.inParens (Tokens.commaSeparated (receiver ++ params)) ++ front ++
          Tokens.inBraces body = tokens := by
  unfold lowerMethod
  simp only [Lowered.bind_eq_ok]
  constructor
  · rintro ⟨name, named, params, given, front, typed, body, inside, same⟩
    exact ⟨name, params, front, body, named, given, typed, inside, Except.ok.inj same⟩
  · rintro ⟨name, params, front, body, named, given, typed, inside, same⟩
    exact ⟨name, named, params, given, front, typed, body, inside, congrArg _ same⟩

theorem isFunction_lowerMethod {receiver : List Tokens} {method : Method} {tokens : Tokens}
    (borrows : ∀ part ∈ receiver, Balanced part)
    (lowered : lowerMethod context receiver method = .ok tokens) :
    ∃ name, identifier method.name = .ok name ∧ IsFunction name tokens := by
  obtain ⟨name, params, front, body, named, given, typed, inside, rfl⟩ := lowerMethod_eq_ok.mp lowered
  exact ⟨name, named, isFunction method.isPublic (flat_identifier named)
    (List.forall_mem_append.mpr ⟨borrows, balanced_lowerParams given⟩) (flat_lowerReturnType typed)
    (balanced_lowerBody inside)⟩

variable {table : ClassTable} {info : ClassInfo}

theorem isFunction_lowerClassMethod {method : Method} {tokens : Tokens}
    (lowered : lowerClassMethod table info method = .ok tokens) :
    ∃ name, identifier method.name = .ok name ∧ IsFunction name tokens := by
  refine isFunction_lowerMethod (List.forall_mem_singleton.mpr ?_) lowered
  unfold receiverTokens
  split
  · exact balanced_mark "&" (by decide) (.word _ (.word _ .nil))
  · exact balanced_mark "&" (by decide) (.word _ .nil)

theorem isFunction_lowerNew {decl : Class} {functions : List Tokens}
    (lowered : lowerNew table info decl = .ok functions) :
    ∀ function ∈ functions, IsFunction (.word "new") function := by
  have builder {isPublic : Bool} {params : List Param} {body : List Stmt} {tokens : Tokens}
      (lowered : lowerBuilder table info isPublic params body = .ok tokens) :
      IsFunction (.word "new") tokens := by
    obtain ⟨given, names, lowered⟩ := Lowered.bind_eq_ok.mp lowered
    obtain ⟨stmts, inside, lowered⟩ := Lowered.bind_eq_ok.mp lowered
    have start : Balanced (ended ([.word "let", .word "mut", .word "this", .mark "=", .word "Self"] ++
        Tokens.mark "::" ++ .word "default" :: Tokens.inParens [])) :=
      .word _ (.word _ (.word _ (balanced_mark _ (by decide) (.word _ (balanced_mark _ (by decide)
        (.word _ (Balanced.nil.parens.append (balanced_mark _ (by decide) .nil))))))))
    have function := isFunction isPublic (.word "new" .nil) (balanced_lowerParams names)
      (.token (by decide) (by decide) (by decide) (.word "Self" .nil) : Flat [.mark "->", .word "Self"])
      ((start.append (balanced_lowerBody inside)).append (.word "this" .nil))
    obtain rfl := Except.ok.inj lowered
    simpa only [Tokens.mark, List.append_assoc, List.cons_append, List.nil_append] using function
  unfold lowerNew at lowered
  split at lowered
  · dsimp only at lowered
    split at lowered
    · obtain ⟨function, built, lowered⟩ := Lowered.bind_eq_ok.mp lowered
      obtain rfl := Except.ok.inj lowered
      exact List.forall_mem_singleton.mpr (builder built)
    · obtain ⟨function, built, lowered⟩ := Lowered.bind_eq_ok.mp lowered
      obtain rfl := Except.ok.inj lowered
      exact List.forall_mem_singleton.mpr (builder built)
    · cases lowered
  · obtain rfl := Except.ok.inj lowered
    nofun

theorem balanced_lowerField {field : Field} {result : LoweredField}
    (lowered : lowerField table info field = .ok result) :
    Balanced result.declaration ∧ Balanced result.initial := by
  unfold lowerField at lowered
  split at lowered
  · cases lowered
  · obtain ⟨name, named, lowered⟩ := Lowered.bind_eq_ok.mp lowered
    obtain ⟨type, typed, lowered⟩ := Lowered.bind_eq_ok.mp lowered
    obtain ⟨initial, valued, lowered⟩ := Lowered.bind_eq_ok.mp lowered
    obtain rfl := Except.ok.inj lowered
    have named := (flat_identifier named).balanced
    refine ⟨(flat_visibility _).balanced.append (named.append
      (balanced_mark ":" (by decide) (flat_lowerType _ typed).balanced)),
      named.append (balanced_mark ":" (by decide) ?_)⟩
    cases default : field.default with
    | some value =>
        rw [default] at valued
        exact balanced_lowerExpr valued
    | none =>
        rw [default] at valued
        obtain rfl := Except.ok.inj valued
        exact .word _ (balanced_mark _ (by decide) (.word _ (.parens .nil)))

theorem isItem_itemMark {signs : Tokens} (known : signs = [] ∨ signs = [.mark "!"]) (name : String)
    (arguments : List String) : IsItem (.mark "#" :: (signs ++ itemMark name arguments)) :=
  isItem_attribute known (.word name (.parens (.commaSeparated
    (List.forall_mem_map.mpr fun argument _ => .word argument .nil))))

theorem isItem_structureTokens {decl : Class} {name : TargetToken} {fields : List LoweredField}
    (flat : Flat [name]) (balanced : ∀ field ∈ fields, Balanced field.declaration) :
    IsItem (structureTokens decl name fields) := by
  have inside : Balanced (Tokens.commaSeparated (fields.map (·.declaration))) :=
    .commaSeparated (List.forall_mem_map.mpr balanced)
  unfold structureTokens
  cases decl.isPublic with
  | false => exact isItem_block "struct" flat inside
  | true => exact isItem_block "pub" (.word "struct" flat) inside

theorem isItem_defaultImplementation {name : TargetToken} {fields : List LoweredField}
    (flat : Flat [name]) (balanced : ∀ field ∈ fields, Balanced field.initial) :
    IsItem (defaultImplementation name fields) := by
  have built : Balanced (.word "Self" ::
      Tokens.inBraces (Tokens.commaSeparated (fields.map (·.initial)))) :=
    .word _ (.braces (.commaSeparated (List.forall_mem_map.mpr balanced)))
  exact isItem_block "impl" (.word "Default" (.word "for" flat))
    (.word _ (.word _ (Balanced.nil.parens.append
      (balanced_mark _ (by decide) (.word _ (.braces built))))))

/-- What the implementation of a class is made of. -/
structure Implementation where
  name : TargetToken
  functions : List Tokens

/-- The block of an implementation of a type. Without a function there is none. -/
def Implementation.block? (other : TargetToken) (own : Implementation) : Option Tokens :=
  if own.name = other ∧ own.functions.isEmpty = false then some own.functions.flatten else none

/-- The implementation of a class that has been lowered: `new`, if there is one, and its methods. -/
structure Implements (table : ClassTable) (decl : Class) (own : Implementation) : Prop where
  named : identifier decl.name = .ok own.name
  lowered : ∃ info new methods, table.find? decl.name = some info ∧
    lowerNew table info decl = .ok new ∧
    decl.methods.mapM (lowerClassMethod table info) = .ok methods ∧ own.functions = new ++ methods

theorem Implements.isFunction {decl : Class} {own : Implementation}
    (implements : Implements table decl own) :
    ∀ function ∈ own.functions, ∃ called, IsFunction called function := by
  obtain ⟨info, new, methods, _, built, lowered, same⟩ := implements.lowered
  rw [same]
  refine List.forall_mem_append.mpr ⟨fun function inside => ⟨_, isFunction_lowerNew built function inside⟩,
    forall_mem_of_forall₂ (Lowered.mapM_eq_ok.mp lowered) fun method function lowered => ?_⟩
  obtain ⟨called, _, shaped⟩ := isFunction_lowerClassMethod lowered
  exact ⟨called, shaped⟩

/-- Tokens are cut into items, and the implementations among these are those of some classes. -/
def Itemized (table : ClassTable) (classes : List Class) (tokens : Tokens) : Prop :=
  ∃ (parts : List Tokens) (owns : List Implementation), parts.flatten = tokens ∧
    (∀ part ∈ parts, IsItem part) ∧ List.Forall₂ (Implements table) classes owns ∧
    ∀ other, parts.filterMap (implementation? other) = owns.filterMap (Implementation.block? other)

namespace Itemized

variable {classes others : List Class} {tokens rest : Tokens}

theorem nil : Itemized table [] [] := ⟨[], [], rfl, nofun, .nil, fun _ => rfl⟩

theorem item (isItem : IsItem tokens) (none : ∀ other, implementation? other tokens = none) :
    Itemized table [] tokens :=
  ⟨[tokens], [], List.append_nil tokens, List.forall_mem_singleton.mpr isItem, .nil,
    fun other => by rw [List.filterMap_cons, none]; rfl⟩

theorem append (first : Itemized table classes tokens) (second : Itemized table others rest) :
    Itemized table (classes ++ others) (tokens ++ rest) := by
  obtain ⟨parts, owns, rfl, each, related, same⟩ := first
  obtain ⟨partsLater, ownsLater, rfl, eachLater, relatedLater, sameLater⟩ := second
  exact ⟨parts ++ partsLater, owns ++ ownsLater, List.flatten_append,
    List.forall_mem_append.mpr ⟨each, eachLater⟩, List.rel_append related relatedLater,
    fun other => by rw [List.filterMap_append, List.filterMap_append, same, sameLater]⟩

theorem flatten {α : Type} {classesOf : α → List Class} {values : List α} {results : List Tokens}
    (related : List.Forall₂ (fun value result => Itemized table (classesOf value) result)
      values results) : Itemized table (values.flatMap classesOf) results.flatten := by
  induction related with
  | nil => exact .nil
  | cons here _ ih =>
      rw [List.flatMap_cons, List.flatten_cons]
      exact here.append ih

end Itemized

/-- The items in front of the implementation of a class are no implementations without a trait. -/
theorem itemized_structure {decl : Class} {name : TargetToken} {fields : List LoweredField}
    (flat : Flat [name])
    (balanced : ∀ field ∈ fields, Balanced field.declaration ∧ Balanced field.initial)
    (hasDefaults : Bool) :
    Itemized table [] (derivation hasDefaults ++ structureTokens decl name fields ++
      (if hasDefaults then defaultImplementation name fields else [])) := by
  have derived : Itemized table [] (derivation hasDefaults) :=
    .item (isItem_itemMark (.inl rfl) _ _) fun _ => rfl
  have structured : Itemized table [] (structureTokens decl name fields) :=
    .item (isItem_structureTokens flat fun field inside => (balanced field inside).1) fun _ => by
      unfold structureTokens
      cases decl.isPublic <;> rfl
  refine (derived.append structured).append ?_
  cases hasDefaults with
  | false => exact .nil
  | true =>
      exact .item (isItem_defaultImplementation flat fun field inside => (balanced field inside).2)
        fun _ => rfl

/-- The implementation of a class with functions is one item, and without functions it is left out. -/
theorem itemized_implementation {decl : Class} {name : TargetToken} {functions : List Tokens}
    (flat : Flat [name]) (implements : Implements table decl ⟨name, functions⟩) :
    Itemized table [decl] (implementation name functions) := by
  unfold implementation
  cases empty : functions.isEmpty with
  | true =>
      exact ⟨[], [⟨name, functions⟩], rfl, nofun, .cons implements .nil,
        fun other => by simp [Implementation.block?, empty]⟩
  | false =>
      refine ⟨[_], [⟨name, functions⟩], List.append_nil _, List.forall_mem_singleton.mpr
        (isItem_block "impl" flat (.flatten fun function inside => ?_)), .cons implements .nil,
        fun other => ?_⟩
      · obtain ⟨_, shaped⟩ := implements.isFunction function inside
        exact shaped.balanced
      · have cut : implementation? other ([.word "impl", name] ++ Tokens.inBraces functions.flatten) =
            if name = other then some functions.flatten else none := by
          change (if name = other then some (functions.flatten ++ [_]).dropLast else none) = _
          rw [List.dropLast_concat]
        rw [if_neg Bool.false_ne_true, List.filterMap_cons, cut]
        by_cases own : name = other <;> simp [Implementation.block?, own, empty]

theorem itemized_lowerClass {decl : Class} {tokens : Tokens}
    (lowered : lowerClass table decl = .ok tokens) : Itemized table [decl] tokens := by
  unfold lowerClass at lowered
  split at lowered
  · cases lowered
  · next info found =>
    obtain ⟨name, named, lowered⟩ := Lowered.bind_eq_ok.mp lowered
    obtain ⟨fields, fielded, lowered⟩ := Lowered.bind_eq_ok.mp lowered
    obtain ⟨new, built, lowered⟩ := Lowered.bind_eq_ok.mp lowered
    obtain ⟨methods, given, lowered⟩ := Lowered.bind_eq_ok.mp lowered
    obtain rfl := Except.ok.inj lowered
    have flat := flat_identifier named
    have balanced := forall_mem_of_forall₂ (Lowered.mapM_eq_ok.mp fielded)
      fun _ _ lowered => balanced_lowerField lowered
    have implements : Implements table decl ⟨name, new ++ methods⟩ :=
      ⟨named, info, new, methods, found, built, given, rfl⟩
    exact (itemized_structure flat balanced _).append (itemized_implementation flat implements)

/-- The classes of a declaration, with the nested ones. -/
def declaredClasses : Declaration → List Class
  | .type _ decl => classTree decl
  | .importPath _ _ | .function _ _ => []

theorem allClasses_eq_flatMap (program : Program) :
    allClasses program = program.declarations.flatMap declaredClasses := by
  unfold allClasses Program.classes
  induction program.declarations with
  | nil => rfl
  | cons declaration rest ih =>
      cases declaration <;> simp [List.filterMap_cons, Declaration.class?, declaredClasses, ih]

theorem itemized_lowerDeclaration {declaration : Declaration} {tokens : Tokens}
    (lowered : lowerDeclaration table declaration = .ok tokens) :
    Itemized table (declaredClasses declaration) tokens := by
  cases declaration with
  | importPath span path =>
      obtain ⟨segments, named, lowered⟩ := Lowered.bind_eq_ok.mp lowered
      obtain rfl := Except.ok.inj lowered
      exact .item (isItem_ended "use" (flat_path (flat_identifiers named))) fun _ => rfl
  | function span method =>
      obtain ⟨name, _, shaped⟩ := isFunction_lowerMethod (by simp) lowered
      exact .item shaped.item fun _ => implementation?_of_functionName? shaped.named
  | type span decl =>
      obtain ⟨classes, each, lowered⟩ := Lowered.bind_eq_ok.mp lowered
      obtain rfl := Except.ok.inj lowered
      have whole : Itemized table ((classTree decl).flatMap fun decl => [decl]) classes.flatten :=
        .flatten ((Lowered.mapM_eq_ok.mp each).imp fun _ _ => itemized_lowerClass)
      rwa [List.flatMap_singleton'] at whole

theorem itemized_lintAllowances (wanted : Bool) :
    Itemized table [] (if wanted then lintAllowances else []) := by
  cases wanted with
  | false => exact .nil
  | true => exact .item (isItem_itemMark (.inr rfl) _ _) fun _ => rfl

theorem itemized_lowerProgram {options : EmitOptions} {program : Program} {file : TargetFile}
    (lowered : Emitter.lowerProgram ⟨options, table⟩ program = .ok file) :
    Itemized table (allClasses program) file.tokens := by
  obtain ⟨parts, each, lowered⟩ := Lowered.bind_eq_ok.mp lowered
  obtain rfl := Except.ok.inj lowered
  rw [allClasses_eq_flatMap]
  exact (itemized_lintAllowances _).append (.flatten ((Lowered.mapM_eq_ok.mp each).imp fun _ _ => itemized_lowerDeclaration))

theorem emit_eq_ok {emitter : Emitter} {program : Program} {file : TargetFile}
    (emitted : (emitter.emit program).1 = .ok file) :
    ∃ table, emitter.table.collect program = (table, none) ∧
      Emitter.lowerProgram ⟨emitter.options, table⟩ program = .ok file := by
  unfold Emitter.emit at emitted
  split at emitted
  · cases emitted
  · next table collected => exact ⟨table, collected, emitted⟩

/-- The implementations of a type in a lowered program are the blocks of the classes that are lowered
to this type, in their order. -/
theorem implementations_lower {options : EmitOptions} {program : Program} {file : TargetFile}
    (lowered : Emitter.lowerProgram ⟨options, table⟩ program = .ok file) :
    ∃ owns, List.Forall₂ (Implements table) (allClasses program) owns ∧
      ∀ name, implementations name file.tokens = owns.filterMap (Implementation.block? name) := by
  obtain ⟨parts, owns, same, each, related, blocks⟩ := itemized_lowerProgram lowered
  refine ⟨owns, related, fun name => ?_⟩
  have cut := implementations_flatten name each []
  rw [List.append_nil, same, blocks] at cut
  exact cut.trans (List.append_nil _)

end DataClass.Lowering
