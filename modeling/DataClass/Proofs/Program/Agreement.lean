import DataClass.Proofs.Grammar.Yield
import DataClass.Proofs.Program.Erasure
namespace DataClass

/-! Two parts of a program are the same wherever they stand just if they are equal without their
places. Numbers are compared as numbers, so this is about numbers that are told apart by their
values: no NaN, and no zero with a sign. -/

namespace Binary64

structure IsPlain (value : Binary64) : Prop where
  number : value.isNaN = false
  unsigned : value.rank = 0 → value.isNegative = false

theorem bits_of_zero {value : Binary64} (plain : value.IsPlain) (zero : value.rank = 0) :
    value = ⟨0⟩ := by
  have positive := plain.unsigned zero
  simp only [isNegative, decide_eq_false_iff_not, Nat.not_le] at positive
  simp only [rank, Nat.mod_eq_of_lt positive] at zero
  obtain ⟨bits⟩ := value
  exact congrArg mk (UInt64.toNat_inj.mp zero)

theorem same_iff {left right : Binary64} (first : left.IsPlain) (second : right.IsPlain) :
    left.same right = true ↔ left = right := by
  simp only [same, first.number, second.number, Bool.not_false, Bool.true_and, Bool.or_eq_true,
    Bool.and_eq_true, beq_iff_eq]
  constructor
  · rintro (bits | ⟨zero, zero'⟩)
    · cases left
      cases right
      exact congrArg mk bits
    · rw [bits_of_zero first zero, bits_of_zero second zero']
  · rintro rfl
    exact .inl rfl

end Binary64

namespace TokenKind

def IsPlain : TokenKind → Prop
  | .float value => value.IsPlain
  | _ => True

end TokenKind

/-- Tokens without numbers that are not told apart by their values. -/
def Plain (kinds : List TokenKind) : Prop := ∀ kind ∈ kinds, kind.IsPlain

theorem Plain.left {first second : List TokenKind} (plain : Plain (first ++ second)) :
    Plain first := (List.forall_mem_append.mp plain).1

theorem Plain.right {first second : List TokenKind} (plain : Plain (first ++ second)) :
    Plain second := (List.forall_mem_append.mp plain).2

theorem Plain.tail {kind : TokenKind} {kinds : List TokenKind} (plain : Plain (kind :: kinds)) :
    Plain kinds := (List.forall_mem_cons.mp plain).2

theorem Plain.parenthesized {parts : List (List TokenKind)}
    (plain : Plain (TokenKind.parenthesized parts)) : ∀ part ∈ parts, Plain part := by
  have separated : Plain (TokenKind.separated parts) := plain.tail.left
  cases parts with
  | nil => nofun
  | cons first rest =>
      refine List.forall_mem_cons.mpr ⟨separated.left, fun part listed kind inside => ?_⟩
      exact separated.right kind
        (List.mem_flatMap.mpr ⟨part, listed, List.mem_cons_of_mem _ inside⟩)

section Options

variable {α : Type} {agrees : α → α → Bool} {erase : α → α}

theorem agreesOption_iff {left right : Option α}
    (each : ∀ first ∈ left, ∀ second ∈ right, agrees first second = true ↔ erase first = erase second) :
    agreesOption agrees left right = true ↔ left.map erase = right.map erase := by
  cases left <;> cases right <;> simp_all [agreesOption]

theorem agreesList_iff {lefts rights : List α}
    (each : ∀ first ∈ lefts, ∀ second ∈ rights,
      agrees first second = true ↔ erase first = erase second) :
    agreesList agrees lefts rights = true ↔ lefts.map erase = rights.map erase := by
  induction lefts generalizing rights with
  | nil => cases rights <;> simp [agreesList]
  | cons left lefts ih =>
      cases rights with
      | nil => simp [agreesList]
      | cons right rights =>
          have here := each left List.mem_cons_self right List.mem_cons_self
          have later : agreesList agrees lefts rights = true ↔ lefts.map erase = rights.map erase :=
            ih fun first held second listed =>
              each first (List.mem_cons_of_mem _ held) second (List.mem_cons_of_mem _ listed)
          simp [agreesList, here, later]

end Options

namespace TypeRef

mutual

theorem agrees_iff : (left right : TypeRef) →
    (left.agrees (fun _ _ => true) right = true ↔ left.erase = right.erase)
  | .named _ path arguments, right => by
      cases right with
      | named span path' arguments' =>
          simp [agrees, agreesAll_iff arguments arguments']
      | _ => simp [agrees]
  | .array _ element, right => by
      cases right with
      | array span element' => simp [agrees, agrees_iff element element']
      | _ => simp [agrees]
  | .void _, right => by
      cases right <;> simp [agrees]

theorem agreesAll_iff : (lefts rights : List TypeRef) →
    (agreesAll (fun _ _ => true) lefts rights = true ↔ lefts.map erase = rights.map erase)
  | [], rights => by cases rights <;> simp [agreesAll]
  | left :: lefts, rights => by
      cases rights with
      | nil => simp [agreesAll]
      | cons right rights => simp [agreesAll, agrees_iff left right, agreesAll_iff lefts rights]

end

end TypeRef

namespace Expr

mutual

theorem agrees_iff : (left right : Expr) → Plain left.kinds → Plain right.kinds →
    (left.agrees (fun _ _ => true) right = true ↔ left.erase = right.erase)
  | .int _ _, right, _, _ | .string _ _, right, _, _ | .bool _ _, right, _, _
  | .null _, right, _, _ | .ident _ _, right, _, _ | .this _, right, _, _ => by
      cases right <;> simp [agrees]
  | .float _ value, right, first, second => by
      cases right with
      | float span value' =>
          have here : value.IsPlain := first _ List.mem_cons_self
          have there : value'.IsPlain := second _ List.mem_cons_self
          simp [agrees, Binary64.same_iff here there]
      | _ => simp [agrees]
  | .field _ base name, right, first, second => by
      cases right with
      | field span base' name' =>
          rw [kinds] at first second
          simp [agrees, agrees_iff base base' first.left second.left]
      | _ => simp [agrees]
  | .call _ callee arguments, right, first, second => by
      cases right with
      | call span callee' arguments' =>
          rw [kinds, kindsAll_eq_map] at first second
          have given := agreesAll_iff arguments arguments'
            (List.forall_mem_map.mp first.right.parenthesized)
            (List.forall_mem_map.mp second.right.parenthesized)
          simp [agrees, agrees_iff callee callee' first.left second.left, given]
      | _ => simp [agrees]
  | .methodCall _ receiver name arguments, right, first, second => by
      cases right with
      | methodCall span receiver' name' arguments' =>
          rw [kinds, kindsAll_eq_map] at first second
          have given := agreesAll_iff arguments arguments'
            (List.forall_mem_map.mp first.right.tail.tail.parenthesized)
            (List.forall_mem_map.mp second.right.tail.tail.parenthesized)
          simp [agrees, agrees_iff receiver receiver' first.left second.left,
            given, and_assoc]
      | _ => simp [agrees]
  | .unary _ op operand, right, first, second => by
      cases right with
      | unary span op' operand' =>
          rw [kinds] at first second
          simp [agrees, agrees_iff operand operand' first.tail second.tail]
      | _ => simp [agrees]
  | .binary _ left op last, right, first, second => by
      cases right with
      | binary span left' op' last' =>
          rw [kinds] at first second
          simp [agrees, agrees_iff left left' first.left second.left,
            agrees_iff last last' first.right.tail second.right.tail, and_assoc]
      | _ => simp [agrees]
  | .paren _ inner, right, first, second => by
      cases right with
      | paren span inner' =>
          rw [kinds] at first second
          simp [agrees, agrees_iff inner inner' first.tail.left second.tail.left]
      | _ => simp [agrees]

theorem agreesAll_iff : (lefts rights : List Expr) → (∀ expr ∈ lefts, Plain expr.kinds) →
    (∀ expr ∈ rights, Plain expr.kinds) →
    (agreesAll (fun _ _ => true) lefts rights = true ↔ lefts.map erase = rights.map erase)
  | [], rights, _, _ => by cases rights <;> simp [agreesAll]
  | left :: lefts, rights, first, second => by
      cases rights with
      | nil => simp [agreesAll]
      | cons right rights =>
          obtain ⟨here, later⟩ := List.forall_mem_cons.mp first
          obtain ⟨there, behind⟩ := List.forall_mem_cons.mp second
          simp [agreesAll, agrees_iff left right here there, agreesAll_iff lefts rights later behind]

end

theorem agreesOption_iff {left right : Option Expr} (first : Plain (optionKinds left))
    (second : Plain (optionKinds right)) :
    agreesOption (agrees fun _ _ => true) left right = true ↔ left.map erase = right.map erase := by
  refine DataClass.agreesOption_iff fun expr found other held => ?_
  obtain rfl : left = some expr := found
  obtain rfl : right = some other := held
  exact agrees_iff expr other first second

end Expr

namespace Stmt

theorem plain_equals {value : Option Expr} (plain : Plain (Expr.equalsKinds value)) :
    Plain (Expr.optionKinds value) := by
  cases value with
  | none => exact nofun
  | some value => exact plain.tail

theorem plain_else {body : List Stmt} (plain : Plain (elseKinds body)) : Plain (bodyKinds body) := by
  match body, plain with
  | [], _ => exact nofun
  | [only], plain =>
      rw [elseKinds] at plain
      rw [bodyKinds, bodyKinds, List.append_nil]
      split at plain
      · exact plain
      · exact plain.tail.left
  | first :: second :: rest, plain =>
      rw [elseKinds] at plain
      exact plain.tail.left

mutual

theorem agrees_iff : (left right : Stmt) → Plain left.kinds → Plain right.kinds →
    (left.agrees (fun _ _ => true) right = true ↔ left.erase = right.erase)
  | .declare _ name type value, right, first, second => by
      cases right with
      | declare span name' type' value' =>
          rw [kinds] at first second
          have typed : agreesOption (TypeRef.agrees fun _ _ => true) type type' = true ↔
              type.map TypeRef.erase = type'.map TypeRef.erase :=
            agreesOption_iff fun found _ other _ => TypeRef.agrees_iff found other
          simp [agrees, typed,
            Expr.agreesOption_iff (plain_equals first.tail.tail.right.left)
              (plain_equals second.tail.tail.right.left), and_assoc]
      | _ => simp [agrees]
  | .assign _ target value, right, first, second => by
      cases right with
      | assign span target' value' =>
          rw [kinds] at first second
          simp [agrees, target.agrees_iff target' first.left second.left,
            value.agrees_iff value' first.right.tail.left second.right.tail.left]
      | _ => simp [agrees]
  | .giveBack _ value, right, first, second => by
      cases right with
      | giveBack span value' =>
          rw [kinds] at first second
          simp [agrees, Expr.agreesOption_iff first.tail.left second.tail.left]
      | _ => simp [agrees]
  | .choose _ condition thenBody none, right, first, second => by
      cases right with
      | choose span condition' thenBody' elseBody' =>
          cases elseBody' with
          | none =>
              rw [kinds] at first second
              simp [agrees, condition.agrees_iff condition' first.tail.left second.tail.left,
                agreesAll_iff thenBody thenBody' first.tail.right.tail.left
                  second.tail.right.tail.left]
          | some elseBody' => simp [agrees]
      | _ => simp [agrees]
  | .choose _ condition thenBody (some elseBody), right, first, second => by
      cases right with
      | choose span condition' thenBody' elseBody' =>
          cases elseBody' with
          | none => simp [agrees]
          | some elseBody' =>
              rw [kinds] at first second
              simp [agrees, condition.agrees_iff condition' first.tail.left second.tail.left,
                agreesAll_iff thenBody thenBody' first.tail.right.left.tail.left
                  second.tail.right.left.tail.left,
                agreesAll_iff elseBody elseBody' (plain_else first.tail.right.right.tail)
                  (plain_else second.tail.right.right.tail), and_assoc]
      | _ => simp [agrees]
  | .repeatWhile _ condition body, right, first, second => by
      cases right with
      | repeatWhile span condition' body' =>
          rw [kinds] at first second
          simp [agrees, condition.agrees_iff condition' first.tail.left second.tail.left,
            agreesAll_iff body body' first.tail.right.tail.left second.tail.right.tail.left]
      | _ => simp [agrees]
  | .evaluate _ expr, right, first, second => by
      cases right with
      | evaluate span expr' =>
          rw [kinds] at first second
          simp [agrees, expr.agrees_iff expr' first.left second.left]
      | _ => simp [agrees]

theorem agreesAll_iff : (lefts rights : List Stmt) → Plain (bodyKinds lefts) →
    Plain (bodyKinds rights) →
    (agreesAll (fun _ _ => true) lefts rights = true ↔ lefts.map erase = rights.map erase)
  | [], rights, _, _ => by cases rights <;> simp [agreesAll]
  | left :: lefts, rights, first, second => by
      cases rights with
      | nil => simp [agreesAll]
      | cons right rights =>
          rw [bodyKinds] at first second
          simp [agreesAll, agrees_iff left right first.left second.left,
            agreesAll_iff lefts rights first.right second.right]

end

end Stmt

namespace Tag

theorem agrees_iff (left right : Tag) :
    left.agrees (fun _ _ => true) right = true ↔ left.erase = right.erase := by
  cases left
  cases right
  simp [agrees]

end Tag

namespace Param

theorem agrees_iff (left right : Param) :
    left.agrees (fun _ _ => true) right = true ↔ left.erase = right.erase := by
  cases left
  cases right
  simp [agrees, TypeRef.agrees_iff]

end Param

namespace Method

/-- Methods are compared by what they are without their places. -/
theorem alike_iff_erase {left right : Method} (first : Plain (Stmt.bodyKinds left.body))
    (second : Plain (Stmt.bodyKinds right.body)) :
    left.alike right = true ↔ left.erase = right.erase := by
  obtain ⟨tags, isPublic, name, params, returnType, body⟩ := left
  obtain ⟨tags', isPublic', name', params', returnType', body'⟩ := right
  have marked : agreesList (Tag.agrees fun _ _ => true) tags tags' = true ↔
      tags.map Tag.erase = tags'.map Tag.erase :=
    agreesList_iff fun tag _ other _ => tag.agrees_iff other
  have given : agreesList (Param.agrees fun _ _ => true) params params' = true ↔
      params.map Param.erase = params'.map Param.erase :=
    agreesList_iff fun param _ other _ => param.agrees_iff other
  simp [alike, agrees, marked, given, TypeRef.agrees_iff, Stmt.agreesAll_iff body body' first second,
    and_assoc]

end Method

end DataClass
