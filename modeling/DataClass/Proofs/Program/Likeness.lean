import DataClass.Proofs.Program.Agreement
import DataClass.Proofs.Program.Literals
import Mathlib.Data.List.Basic
namespace DataClass

/-! Methods are alike if they are equal without their places, and only then. So to be alike is an
equivalence, and no difference but one of places is overlooked. This is about methods whose numbers are
told apart by their values, as are all numbers that are read from a text. -/

open TokenKind

/-- The numbers among expressions are told apart by their values: none of them is a NaN or a zero with
a minus sign. -/
def PlainNumbers (exprs : List Expr) : Prop :=
  ∀ span value, .float span value ∈ exprs → value.IsPlain

theorem PlainNumbers.mono {fewer more : List Expr} (plain : PlainNumbers more)
    (inside : ∀ expr ∈ fewer, expr ∈ more) : PlainNumbers fewer :=
  fun span value listed => plain span value (inside _ listed)

/-- The numbers among tokens are those of the expressions that the tokens stand for. -/
theorem plain_of_literals {kinds : List TokenKind} {exprs : List Expr} (plain : PlainNumbers exprs)
    (same : literals kinds = exprs.filterMap Expr.literal?) : Plain kinds := by
  intro kind inside
  cases kind with
  | float value =>
      have literal : TokenKind.float value ∈ literals kinds := List.mem_filter.mpr ⟨inside, rfl⟩
      rw [same] at literal
      obtain ⟨expr, listed, found⟩ := List.mem_filterMap.mp literal
      cases expr <;> cases found
      exact plain _ _ listed
  | _ => trivial

/-- What is read from a text has neither a NaN nor a zero with a minus sign. -/
theorem Program.plainNumbers_of_ofSource {source : String} {program : Program}
    (read : Program.ofSource source = .ok program) : PlainNumbers program.exprs := by
  intro span value listed
  have lexical := ((writable_of_ofSource read).exprs _ listed).lexical
  have literal : value.IsLiteral := lexical.head
  exact ⟨literal.isNaN, fun _ => literal.isNegative⟩

/-- The methods that stand in no nested class are made of expressions of the program. -/
theorem Program.exprs_of_mem_topMethods {program : Program} {method : Method}
    (listed : method ∈ program.topMethods) :
    ∀ expr ∈ Stmt.exprsAll method.body, expr ∈ program.exprs := by
  intro expr inside
  obtain ⟨declaration, declared, among⟩ := List.mem_flatMap.mp listed
  refine List.mem_flatMap.mpr ⟨declaration, declared, ?_⟩
  cases declaration with
  | importPath span path => cases among
  | type span decl =>
      obtain ⟨member, held, found⟩ := List.mem_filterMap.mp among
      rw [Declaration.exprs, Member.exprsAll_eq_flatMap]
      refine List.mem_flatMap.mpr ⟨member, held, ?_⟩
      cases member <;> simp only [Member.method?, reduceCtorEq, Option.some.injEq] at found
      exact found ▸ inside
  | function span decl => exact List.mem_singleton.mp among ▸ inside

namespace Method

/-- The numbers in the body are told apart by their values. -/
def HasPlainNumbers (method : Method) : Prop := PlainNumbers (Stmt.exprsAll method.body)

variable {left right : Method}

theorem alike_iff_erase_of_plainNumbers (first : left.HasPlainNumbers)
    (second : right.HasPlainNumbers) :
    left.alike right = true ↔ left.erase = right.erase :=
  alike_iff_erase (plain_of_literals first (Stmt.literals_bodyKinds left.body))
    (plain_of_literals second (Stmt.literals_bodyKinds right.body))

/-- Two methods without their places are equal part by part. -/
theorem erase_eq_iff : left.erase = right.erase ↔
    left.tags.map Tag.path = right.tags.map Tag.path ∧ left.isPublic = right.isPublic ∧
      left.name = right.name ∧
      left.params.map (fun param => (param.name, param.type.erase)) =
        right.params.map (fun param => (param.name, param.type.erase)) ∧
      left.returnType.erase = right.returnType.erase ∧
      left.body.map Stmt.erase = right.body.map Stmt.erase := by
  have tagged (tags others : List Tag) :
      tags.map Tag.erase = others.map Tag.erase ↔ tags.map Tag.path = others.map Tag.path := by
    have same : Tag.erase = Tag.mk .origin ∘ Tag.path := rfl
    rw [same, ← List.map_map, ← List.map_map, List.map_inj_right fun _ _ same =>
      (Tag.mk.inj same).2]
  have given (params others : List Param) : params.map Param.erase = others.map Param.erase ↔
      params.map (fun param => (param.name, param.type.erase)) =
        others.map (fun param => (param.name, param.type.erase)) := by
    let build (parts : String × TypeRef) : Param := ⟨.origin, parts.1, parts.2⟩
    have same : Param.erase = build ∘ fun param => (param.name, param.type.erase) := rfl
    rw [same, ← List.map_map, ← List.map_map, List.map_inj_right fun _ _ same =>
      Prod.ext (Param.mk.inj same).2.1 (Param.mk.inj same).2.2]
  cases left
  cases right
  simp only [erase_mk, mk.injEq, tagged, given]

/-- Methods whose numbers are told apart by their values, as those of every text are, are alike exactly
if they are equal once every place in them is the same one. To be alike is an equivalence of such
methods, and two of them are alike exactly if they have the same tags, visibility, name, parameters,
return type and body, wherever these stand. -/
theorem alike_iff_equal_apart_from_places :
    (∀ left right : Method, left.HasPlainNumbers → right.HasPlainNumbers →
      (left.alike right = true ↔
        left.mapSpans (fun _ => .origin) = right.mapSpans (fun _ => .origin)) ∧
      (left.alike right = true ↔
        left.tags.map Tag.path = right.tags.map Tag.path ∧ left.isPublic = right.isPublic ∧
          left.name = right.name ∧
          left.params.map (fun param => (param.name, param.type.erase)) =
            right.params.map (fun param => (param.name, param.type.erase)) ∧
          left.returnType.erase = right.returnType.erase ∧
          left.body.map Stmt.erase = right.body.map Stmt.erase)) ∧
    Equivalence (fun left right : { method : Method // method.HasPlainNumbers } =>
      left.1.alike right.1 = true) ∧
    ∀ source program, Program.ofSource source = .ok program → PlainNumbers program.exprs := by
  refine ⟨fun left right first second => ?_, ⟨fun method => ?_, fun {left right} same => ?_,
    fun {left middle right} same again => ?_⟩,
    fun source program => Program.plainNumbers_of_ofSource⟩
  · have alike := alike_iff_erase_of_plainNumbers first second
    exact ⟨alike, alike.trans erase_eq_iff⟩
  · exact (alike_iff_erase_of_plainNumbers method.2 method.2).mpr rfl
  · exact (alike_iff_erase_of_plainNumbers right.2 left.2).mpr
      ((alike_iff_erase_of_plainNumbers left.2 right.2).mp same).symm
  · exact (alike_iff_erase_of_plainNumbers left.2 right.2).mpr
      (((alike_iff_erase_of_plainNumbers left.2 middle.2).mp same).trans
        ((alike_iff_erase_of_plainNumbers middle.2 right.2).mp again))

theorem alike_iff_equal_of_moved : ∃ program first second third,
    Program.ofSource "fn f(): void\x7breturn 0.5;\x7d fn f():void\x7breturn 0.5;\x7d fn f():void\x7b\x7d" =
      .ok program ∧
    program.topMethods = [first, second, third] ∧
    first.HasPlainNumbers ∧ second.HasPlainNumbers ∧ third.HasPlainNumbers ∧
    first.agrees (· == ·) second = false ∧ first.alike second = true ∧ first.alike third = false ∧
    first.mapSpans (fun _ => .origin) = second.mapSpans (fun _ => .origin) ∧
    first.mapSpans (fun _ => .origin) ≠ third.mapSpans (fun _ => .origin) := by
  let told (methods : List Method) : Bool :=
    methods.length == 3 &&
      methods.map (fun left => methods.map left.alike) ==
        [[true, true, false], [true, true, false], [false, false, true]] &&
      methods.map (fun left => methods.map (left.agrees (· == ·))) ==
        [[true, false, false], [false, true, false], [false, false, true]]
  obtain ⟨program, read, passed⟩ : ∃ program,
      Program.ofSource
          "fn f(): void\x7breturn 0.5;\x7d fn f():void\x7breturn 0.5;\x7d fn f():void\x7b\x7d" =
        .ok program ∧ told program.topMethods = true :=
    Program.exists_read (told ∘ Program.topMethods) (by decide +kernel)
  simp only [told, Bool.and_eq_true, beq_iff_eq] at passed
  obtain ⟨⟨three, alike⟩, agrees⟩ := passed
  obtain ⟨first, second, third, listed⟩ := List.length_eq_three.mp three
  rw [listed] at alike agrees
  simp only [List.map_cons, List.map_nil, List.cons.injEq, and_true] at alike agrees
  obtain ⟨⟨-, alike, unlike⟩, -⟩ := alike
  obtain ⟨⟨-, apart, -⟩, -⟩ := agrees
  obtain ⟨same, _, plain⟩ := alike_iff_equal_apart_from_places
  have plains (method : Method) (among : method ∈ program.topMethods) : method.HasPlainNumbers :=
    (plain _ _ read).mono (Program.exprs_of_mem_topMethods among)
  have firstPlain := plains first (by simp [listed])
  have secondPlain := plains second (by simp [listed])
  have thirdPlain := plains third (by simp [listed])
  refine ⟨program, first, second, third, read, listed, firstPlain, secondPlain, thirdPlain, apart,
    alike, unlike, (same _ _ firstPlain secondPlain).1.mp alike, fun equal => ?_⟩
  rw [(same _ _ firstPlain thirdPlain).1.mpr equal] at unlike
  cases unlike

end Method

end DataClass
