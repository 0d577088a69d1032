import Mathlib.Data.List.Forall2
import DataClass.Proofs.Lowering.Structure
import DataClass.Proofs.Program.Canonical
namespace DataClass.Lowering

/-! Chains of additions that begin with a string. Whether the right operand of an addition is borrowed
is told by the two operands themselves. The left one of every addition but the first is an addition, and
no addition counts as a string. -/

variable {context : Context} {usage : Usage} {first second right : Expr} {tokens part : Tokens}

/-- The additions of some operands to a first one, from the left to the right. Each operand comes with
the range of its addition. -/
def chain (first : Expr) (rest : List (Span × Expr)) : Expr :=
  rest.foldl (fun left entry => .binary entry.1 left .add entry.2) first

/-- A string literal, or a field of `this` that is declared as a string. -/
inductive IsString (context : Context) : Expr → Prop where
  | literal (span : Span) (value : String) : IsString context (.string span value)
  | field {info : ClassInfo} {typeSpan : Span} {spelling name : String} (span place : Span)
      (inside : context.info = some info)
      (known : info.fieldType? name = some (.named typeSpan [spelling] []))
      (string : spelling ∈ ["String", "str"]) : IsString context (.field span (.this place) name)

theorem isStringType_iff {type : TypeRef} : isStringType type = true ↔
    ∃ span spelling, type = .named span [spelling] [] ∧ spelling ∈ ["String", "str"] := by
  have spelled (spelling : String) :
      BuiltinType.ofSpelling? spelling = some .string ↔ spelling ∈ ["String", "str"] :=
    BuiltinType.ofSpelling?_eq_some_iff
  rw [isStringType, beq_iff_eq]
  rcases type with ⟨span, path, _ | ⟨argument, rest⟩⟩ | ⟨span, element⟩ | span
  · rcases path with _ | ⟨spelling, _ | ⟨second, rest⟩⟩
    · simp [simpleBuiltin?, builtin?]
    · rw [simpleBuiltin?, builtin?, spelled]
      simp
    · simp [simpleBuiltin?, builtin?]
  all_goals simp [simpleBuiltin?]

theorem isStringField_iff {span place : Span} {name : String} :
    context.isStringField (.field span (.this place) name) = true ↔
      ∃ info type, context.info = some info ∧ info.fieldType? name = some type ∧
        isStringType type = true := by
  have told : context.thisFieldType? (.field span (.this place) name) =
      context.info.bind fun info => info.fieldType? name := rfl
  unfold Context.isStringField
  rw [told]
  cases context.info with
  | none => simp
  | some info =>
      rw [Option.bind_some]
      cases known : info.fieldType? name <;> simp [known]

theorem isString_iff {expr : Expr} : IsString context expr ↔ context.isStringStart expr = true := by
  constructor
  · rintro (⟨span, value⟩ | ⟨span, place, inside, known, string⟩)
    · rfl
    · exact isStringField_iff.mpr ⟨_, _, inside, known, isStringType_iff.mpr ⟨_, _, rfl, string⟩⟩
  · intro start
    cases expr with
    | string span value => exact .literal span value
    | field span base name =>
        cases base with
        | this place =>
            obtain ⟨info, type, inside, known, told⟩ := isStringField_iff.mp start
            obtain ⟨_, _, rfl, string⟩ := isStringType_iff.mp told
            exact .field span place inside known string
        | _ => cases start
    | _ => cases start

/-! ### One addition -/

/-- A string literal as it is, or something behind the sign that borrows it. -/
inductive IsBorrowed : Tokens → Prop where
  | literal (value : String) : IsBorrowed [.string value]
  | behind (tokens : Tokens) : IsBorrowed (.mark "&" :: tokens)

/-- What the right operand of an addition is written as. It matters whether the left one is a string. -/
inductive Operand (context : Context) (started : Bool) : Expr → Tokens → Prop where
  | literal (span : Span) (value : String) : Operand context started (.string span value) [.string value]
  | borrowed {right : Expr} {tokens : Tokens} (other : ∀ span value, right ≠ .string span value)
      (wanted : started = true ∨ context.isStringField right = true)
      (lowered : lowerExpr context .place right = .ok tokens) :
      Operand context started right (.mark "&" :: tokens)
  | plain {right : Expr} {tokens : Tokens} (other : ¬ IsString context right)
      (unwanted : started = false) (lowered : lowerExpr context .value right = .ok tokens) :
      Operand context started right tokens

/-- How an operand behind `+` is written, by what it and the left operand are. -/
theorem rightOperand_add (context : Context) (left right : Expr) :
    (∃ span value, right = .string span value ∧
        rightOperand context left .add right = .literal value) ∨
      (∀ span value, right ≠ .string span value) ∧
        ((context.isStringStart left = true ∨ context.isStringField right = true) ∧
            rightOperand context left .add right = .borrowed ∨
          ¬ IsString context right ∧ context.isStringStart left = false ∧
            rightOperand context left .add right = .plain) := by
  by_cases text : ∃ span value, right = .string span value
  · obtain ⟨span, value, rfl⟩ := text
    exact .inl ⟨span, value, rfl, rfl⟩
  have other : ∀ span value, right ≠ .string span value := fun span value same =>
    text ⟨span, value, same⟩
  have field : context.isStringStart right = context.isStringField right := by
    unfold Context.isStringStart
    split
    · next span value => exact absurd rfl (other span value)
    · rfl
  have told : rightOperand context left .add right =
      if context.isStringStart left || context.isStringField right then .borrowed else .plain := by
    unfold rightOperand
    rw [if_pos rfl]
    split
    · next span value => exact absurd rfl (other span value)
    · rfl
  refine .inr ⟨other, ?_⟩
  by_cases wanted : context.isStringStart left = true ∨ context.isStringField right = true
  · exact .inl ⟨wanted, by rw [told, if_pos (by simpa using wanted)]⟩
  · obtain ⟨start, unread⟩ := not_or.mp wanted
    exact .inr ⟨by rwa [isString_iff, field], Bool.eq_false_iff.mpr start,
      by rw [told, if_neg (by simpa using wanted)]⟩

theorem lowerExpr_add {left : Expr} {span : Span}
    (lowered : lowerExpr context usage (.binary span left .add right) = .ok tokens) :
    ∃ head part, lowerExpr context .value left = .ok head ∧
      Operand context (context.isStringStart left) right part ∧ tokens = head ++ .mark "+" :: part := by
  rw [lowerExpr] at lowered
  obtain ⟨head, here, lowered⟩ := Lowered.bind_eq_ok.mp lowered
  rcases rightOperand_add context left right with
    ⟨span, value, rfl, how⟩ | ⟨other, ⟨wanted, how⟩ | ⟨unread, start, how⟩⟩
  · rw [how] at lowered
    exact ⟨head, _, here, .literal span value, (Except.ok.inj lowered).symm⟩
  · rw [how] at lowered
    obtain ⟨part, there, lowered⟩ := Lowered.bind_eq_ok.mp lowered
    exact ⟨head, _, here, .borrowed other wanted there, (Except.ok.inj lowered).symm⟩
  · rw [how] at lowered
    obtain ⟨part, there, lowered⟩ := Lowered.bind_eq_ok.mp lowered
    refine ⟨head, part, here, .plain unread start there, (Except.ok.inj lowered).symm.trans ?_⟩
    rw [List.append_assoc]
    rfl

/-! ### Plain operands are not borrowed -/

/-- Tokens do not begin with the sign that borrows and, where a value is taken, are not only a string. -/
structure Unborrowed (usage : Usage) (tokens : Tokens) : Prop where
  begins : tokens.head? ≠ some (.mark "&")
  holds : usage = .value → ∃ token ∈ tokens, ∀ value, token ≠ .string value

namespace Unborrowed

variable {other : Usage} {front rest : Tokens}

theorem word (spelling : String) : Unborrowed usage (.word spelling :: rest) :=
  ⟨by simp, fun _ => ⟨_, List.mem_cons_self, nofun⟩⟩

theorem number (text : String) : Unborrowed usage (.number text :: rest) :=
  ⟨by simp, fun _ => ⟨_, List.mem_cons_self, nofun⟩⟩

theorem mark {signs : String} (other : signs ≠ "&") : Unborrowed usage (.mark signs :: rest) :=
  ⟨by simpa using other, fun _ => ⟨_, List.mem_cons_self, nofun⟩⟩

/-- What has a sign behind it. -/
theorem before {signs : String} (front : Unborrowed other tokens) (sign : signs ≠ "&") :
    Unborrowed usage (tokens ++ .mark signs :: rest) := by
  refine ⟨?_, fun _ => ⟨.mark signs, by simp, nofun⟩⟩
  cases tokens with
  | nil => simpa using sign
  | cons head tail => exact front.begins

theorem numberTree (isNegative : Bool) (digits : String) :
    Unborrowed usage (Lowering.numberTree isNegative digits).tokens := by
  cases isNegative with
  | true => exact .mark (by decide)
  | false => exact .number digits

theorem thisTree {receiver : Receiver} {tree : Target.Tree}
    (known : Lowering.thisTree receiver = .ok tree) : Unborrowed usage tree.tokens := by
  cases receiver with
  | absent => cases known
  | borrowed | built =>
      obtain rfl := Except.ok.inj known
      exact .word _

theorem construction {info : ClassInfo} {arguments : List Target.Tree} {tree : Target.Tree}
    (built : constructionTree info arguments = .ok tree) : Unborrowed usage tree.tokens := by
  obtain ⟨name, function, _, _, rfl⟩ := exists_path_of_constructionTree built
  exact .word name

end Unborrowed

/-- Lowering borrows nothing by itself, and where a value is taken it makes no mere string literal. -/
theorem unborrowed_lowerTree : (expr : Expr) → ∀ {usage tree},
    lowerTree context usage expr = .ok tree → Unborrowed usage tree.tokens
  | .int _ _, _, _, lowered => by
      cases grows_of_lowerTree lowered with
      | int => exact .numberTree _ _
  | .float _ _, _, _, lowered => by
      cases grows_of_lowerTree lowered with
      | float => exact .numberTree _ _
  | .string _ _, _, _, lowered => by
      cases grows_of_lowerTree lowered with
      | owned => exact .word "String"
      | literal => exact ⟨by simp [Target.Tree.tokens], nofun⟩
  | .bool _ _, _, _, lowered => by
      cases grows_of_lowerTree lowered with
      | bool => exact .word _
  | .null _, _, _, lowered => by
      cases grows_of_lowerTree lowered with
      | null => exact .word _
  | .ident _ _, _, _, lowered => by
      cases grows_of_lowerTree lowered with
      | ident => exact .word _
  | .this _, _, _, lowered => by
      cases grows_of_lowerTree lowered with
      | this _ known => exact .thisTree known
  | .field _ base _, _, _, lowered => by
      cases grows_of_lowerTree lowered with
      | field _ inside => exact (unborrowed_lowerTree base inside).before (by decide)
      | cloned _ inside =>
          simp only [Target.Tree.tokens, List.append_assoc, List.cons_append]
          exact (unborrowed_lowerTree base inside).before (by decide)
  | .call _ callee _, _, _, lowered => by
      cases grows_of_lowerTree lowered with
      | construction _ _ _ built => exact .construction built
      | call _ _ _ inside => exact (unborrowed_lowerTree callee inside).before (by decide)
  | .methodCall _ receiver _ _, _, _, lowered => by
      cases grows_of_lowerTree lowered with
      | methodCall _ inside => exact (unborrowed_lowerTree receiver inside).before (by decide)
  | .unary _ op _, _, _, lowered => by
      cases grows_of_lowerTree lowered with
      | unary => exact .mark (by cases op <;> decide)
  | .binary _ left op _, _, _, lowered => by
      cases grows_of_lowerTree lowered with
      | joined _ first => exact (unborrowed_lowerTree left first).before (by decide)
      | borrowed _ first => exact (unborrowed_lowerTree left first).before (by decide)
      | binary _ first => exact (unborrowed_lowerTree left first).before (by cases op <;> decide)
  | .paren _ _, _, _, lowered => by
      cases grows_of_lowerTree lowered with
      | paren => exact .mark (by decide)

theorem unborrowed_lowerExpr {expr : Expr} (lowered : lowerExpr context usage expr = .ok tokens) :
    Unborrowed usage tokens := by
  obtain ⟨tree, grown, rfl⟩ := exists_tree_of_lowerExpr lowered
  exact unborrowed_lowerTree expr grown

theorem Unborrowed.not_isBorrowed (unborrowed : Unborrowed .value tokens) : ¬ IsBorrowed tokens := by
  rintro (⟨value⟩ | ⟨tokens⟩)
  · obtain ⟨token, listed, other⟩ := unborrowed.holds rfl
    exact other value (List.mem_singleton.mp listed)
  · exact unborrowed.begins rfl

theorem Operand.isBorrowed_of_started (operand : Operand context true right part) :
    IsBorrowed part := by
  cases operand with
  | literal span value => exact .literal value
  | borrowed => exact .behind _
  | plain _ unwanted => cases unwanted

/-- Behind something that is no string only strings are borrowed. -/
theorem Operand.isBorrowed_iff (operand : Operand context false right part) :
    IsBorrowed part ↔ IsString context right := by
  cases operand with
  | literal span value => exact iff_of_true (.literal value) (.literal span value)
  | borrowed other wanted =>
      refine iff_of_true (.behind _) (isString_iff.mpr ?_)
      unfold Context.isStringStart
      split
      · rfl
      · exact wanted.resolve_left Bool.false_ne_true
  | plain other _ lowered => exact iff_of_false (unborrowed_lowerExpr lowered).not_isBorrowed other

/-! ### Chains -/

theorem lowerExpr_chain_of_not_string {rest : List (Span × Expr)} {left : Expr}
    (plain : context.isStringStart left = false)
    (lowered : lowerExpr context .value (chain left rest) = .ok tokens) :
    ∃ head parts, lowerExpr context .value left = .ok head ∧
      List.Forall₂ (fun entry part => Operand context false entry.2 part) rest parts ∧
      tokens = head ++ parts.flatMap (.mark "+" :: ·) := by
  induction rest generalizing left with
  | nil => exact ⟨tokens, [], lowered, .nil, (List.append_nil tokens).symm⟩
  | cons entry rest ih =>
      have sum : context.isStringStart (.binary entry.1 left .add entry.2) = false := rfl
      obtain ⟨head, parts, here, each, rfl⟩ := ih sum lowered
      obtain ⟨first, part, there, operand, rfl⟩ := lowerExpr_add here
      rw [plain] at operand
      exact ⟨first, part :: parts, there, .cons operand each, by simp⟩

/-- A chain with an addition is used as its value is. -/
theorem lowerExpr_chain_cons (usage : Usage) (first : Expr) (entry : Span × Expr)
    (rest : List (Span × Expr)) : lowerExpr context usage (chain first (entry :: rest)) =
      lowerExpr context .value (chain first (entry :: rest)) := by
  induction rest generalizing first entry with
  | nil => simp [chain, lowerExpr]
  | cons next rest ih => exact ih (.binary entry.1 first .add entry.2) next

/-- Additions to a string. The first operand that is added is always borrowed, or a string literal as it
is. Of the operands behind it only those are that are string literals or fields of `this` that are
declared as strings. All others are written as values, so the chain borrows all right operands exactly if
there are no others. -/
theorem lowerExpr_chain {span : Span} {rest : List (Span × Expr)} (start : IsString context first)
    (lowered : lowerExpr context usage (chain first ((span, second) :: rest)) = .ok tokens) :
    ∃ head part parts, lowerExpr context .value first = .ok head ∧
      tokens = head ++ .mark "+" :: part ++ parts.flatMap (.mark "+" :: ·) ∧
      Operand context true second part ∧ IsBorrowed part ∧
      List.Forall₂ (fun entry part => Operand context false entry.2 part ∧
        (IsBorrowed part ↔ IsString context entry.2)) rest parts ∧
      ((∀ part ∈ parts, IsBorrowed part) ↔ ∀ entry ∈ rest, IsString context entry.2) := by
  rw [lowerExpr_chain_cons] at lowered
  have sum : context.isStringStart (.binary span first .add second) = false := rfl
  obtain ⟨front, parts, here, each, rfl⟩ := lowerExpr_chain_of_not_string sum lowered
  obtain ⟨head, part, there, operand, rfl⟩ := lowerExpr_add here
  rw [isString_iff.mp start] at operand
  have single : List.Forall₂ (fun entry part => Operand context false entry.2 part ∧
      (IsBorrowed part ↔ IsString context entry.2)) rest parts :=
    each.imp fun entry part operand => ⟨operand, operand.isBorrowed_iff⟩
  refine ⟨head, part, parts, there, rfl, operand, operand.isBorrowed_of_started, single, ?_⟩
  clear each lowered
  induction single with
  | nil => simp
  | cons here _ ih => rw [List.forall_mem_cons, List.forall_mem_cons, here.2, ih]

/-- Three strings that are added up in a function: a literal and two parameters. -/
def joinExpr : Expr :=
  chain (.string .origin "a") [(.origin, .ident .origin "x"), (.origin, .ident .origin "y")]

/-- The tokens of `String::from("a") + &x + y`. -/
def joinTokens : Tokens :=
  .word "String" :: .mark "::" :: .word "from" :: (Tokens.inParens [.string "a"] ++
    [.mark "+", .mark "&", .word "x", .mark "+", .word "y"])

/-- The second parameter is not borrowed. -/
theorem lowerExpr_chain_join :
    lowerExpr ⟨.empty, none, .absent, []⟩ .value joinExpr = .ok joinTokens ∧
      ∃ head part other, joinTokens = head ++ .mark "+" :: part ++ .mark "+" :: other ∧
        IsBorrowed part ∧ ¬ IsBorrowed other := by
  have lowered : lowerExpr ⟨.empty, none, .absent, []⟩ .value joinExpr = .ok joinTokens := by
    decide +kernel
  refine ⟨lowered, ?_⟩
  obtain ⟨head, part, parts, _, same, _, borrowed, each, _⟩ :=
    lowerExpr_chain (.literal .origin "a") lowered
  obtain ⟨other, _, ⟨_, string⟩, none, rfl⟩ := List.forall₂_cons_left_iff.mp each
  obtain rfl := List.forall₂_nil_left_iff.mp none
  refine ⟨head, part, other, by simpa using same, borrowed, fun bad => ?_⟩
  cases string.mp bad

end DataClass.Lowering
