import DataClass.Proofs.Grammar.Shape
import DataClass.Proofs.Program.Spelled
namespace DataClass

/-! What a written program is read as can be read: it has a shape if the program has one. -/

namespace TypeRef

theorem Shaped.erase {type : TypeRef} (shaped : type.Shaped) : type.erase.Shaped := by
  induction shaped with
  | named span segments inside ih =>
      rw [erase_named]
      exact .named .origin segments (List.forall_mem_map.mpr ih)
  | array span value inside ih =>
      rw [erase_array]
      exact .array .origin (by rwa [isVoid_erase]) ih
  | void span => exact .void .origin

end TypeRef

namespace Expr

theorem tightness_spelled (expr : Expr) : expr.spelled.tightness = expr.tightness := by
  cases expr with
  | float span value =>
      rw [spelled]
      split <;> rfl
  | _ => simp [spelled, tightness]

theorem isAccess_spelled (expr : Expr) : expr.spelled.isAccess = expr.isAccess := by
  cases expr with
  | float span value =>
      rw [spelled]
      split <;> rfl
  | _ => simp [spelled, isAccess]

theorem isAssignable_spelled {expr : Expr} (place : expr.isAssignable = true) :
    expr.spelled.isAssignable = true := by
  cases expr with
  | ident span name => rfl
  | field span base name => simp [spelled, isAssignable]
  | _ => cases place

theorem Shaped.spelled {expr : Expr} (shaped : expr.Shaped) : expr.spelled.Shaped := by
  induction shaped with
  | int span value => exact .int _ _
  | float span value =>
      rw [Expr.spelled]
      split
      · exact .float _ _
      · exact .ident _ _
  | string span value => exact .string _ _
  | bool span value => exact .bool _ _
  | null span => exact .null _
  | ident span name => exact .ident _ _
  | this span => exact .this _
  | field span name tight inside ih =>
      rw [Expr.spelled]
      exact .field _ _ (by rwa [tightness_spelled]) ih
  | call span tight called inside given ih each =>
      rw [Expr.spelled, spelledAll_eq_map]
      exact .call _ (by rwa [tightness_spelled]) (by rwa [isAccess_spelled]) ih
        (List.forall_mem_map.mpr each)
  | methodCall span name tight inside given ih each =>
      rw [Expr.spelled, spelledAll_eq_map]
      exact .methodCall _ _ (by rwa [tightness_spelled]) ih (List.forall_mem_map.mpr each)
  | unary span op tight inside ih =>
      rw [Expr.spelled]
      exact .unary _ _ (by rwa [tightness_spelled]) ih
  | binary span op fits tight first second left right =>
      rw [Expr.spelled]
      exact .binary _ _ (by rwa [FitsLeft, tightness_spelled]) (by rwa [tightness_spelled]) left
        right
  | paren span inside ih =>
      rw [Expr.spelled]
      exact .paren _ ih

end Expr

theorem forall_mem_map {α β : Type} {change : α → β} {property : β → Prop} {value : Option α}
    (each : ∀ found ∈ value, property (change found)) :
    ∀ found ∈ value.map change, property found := by
  cases value with
  | none => nofun
  | some found => simpa using each found rfl

namespace Stmt

theorem Shaped.spelled {stmt : Stmt} (shaped : stmt.Shaped) : stmt.spelled.Shaped := by
  induction shaped with
  | declare span name typed valued =>
      rw [Stmt.spelled]
      refine .declare _ _ ?_ ?_
      · exact forall_mem_map fun type found => (typed type found).erase
      · exact forall_mem_map fun value found => (valued value found).spelled
  | assign span place first second =>
      rw [Stmt.spelled]
      exact .assign _ (Expr.isAssignable_spelled place) first.spelled second.spelled
  | giveBack span valued =>
      rw [Stmt.spelled]
      exact .giveBack _ (forall_mem_map fun value found => (valued value found).spelled)
  | @choose span condition thenBody elseBody test yes no ihThen ihElse =>
      cases elseBody with
      | none =>
          rw [Stmt.spelled, spelledAll_eq_map]
          exact .choose _ test.spelled (List.forall_mem_map.mpr ihThen) nofun
      | some body =>
          rw [Stmt.spelled, spelledAll_eq_map, spelledAll_eq_map]
          refine .choose _ test.spelled (List.forall_mem_map.mpr ihThen) ?_
          rintro _ ⟨rfl⟩
          exact List.forall_mem_map.mpr (ihElse body rfl)
  | repeatWhile span test inside ih =>
      rw [Stmt.spelled, spelledAll_eq_map]
      exact .repeatWhile _ test.spelled (List.forall_mem_map.mpr ih)
  | evaluate span inside =>
      rw [Stmt.spelled]
      exact .evaluate _ inside.spelled

end Stmt

namespace Tag

theorem shaped_erase {tags : List Tag} (shaped : ∀ tag ∈ tags, tag.Shaped) :
    ∀ tag ∈ tags.map erase, tag.Shaped :=
  List.forall_mem_map.mpr shaped

end Tag

namespace Param

theorem shaped_erase {params : List Param} (shaped : ∀ param ∈ params, param.Shaped) :
    ∀ param ∈ params.map erase, param.Shaped :=
  List.forall_mem_map.mpr fun param inside => TypeRef.Shaped.erase (shaped param inside)

end Param

theorem Field.Shaped.spelled {field : Field} (shaped : field.Shaped) : field.spelled.Shaped where
  tagged := Tag.shaped_erase shaped.tagged
  typed := forall_mem_map fun type found => (shaped.typed type found).erase
  valued := forall_mem_map fun value found => (shaped.valued value found).spelled

theorem Method.Shaped.spelled {method : Method} (shaped : method.Shaped) :
    method.spelled.Shaped where
  tagged := Tag.shaped_erase shaped.tagged
  given := Param.shaped_erase shaped.given
  typed := shaped.typed.erase
  inside := List.forall_mem_map.mpr fun stmt inside => (shaped.inside stmt inside).spelled

theorem Constructor.Shaped.spelled {constructor : Constructor} (shaped : constructor.Shaped) :
    constructor.spelled.Shaped where
  tagged := Tag.shaped_erase shaped.tagged
  given := Param.shaped_erase shaped.given
  inside := List.forall_mem_map.mpr fun stmt inside => (shaped.inside stmt inside).spelled

theorem Member.Shaped.spelled {member : Member} (shaped : member.Shaped) :
    member.spelled.Shaped := by
  induction shaped with
  | field span inside =>
      rw [Member.spelled]
      exact .field _ inside.spelled
  | method span inside =>
      rw [Member.spelled]
      exact .method _ inside.spelled
  | constructor span inside =>
      rw [Member.spelled]
      exact .constructor _ inside.spelled
  | initializer span inside =>
      rw [Member.spelled]
      exact .initializer _ (List.forall_mem_map.mpr fun stmt held => (inside stmt held).spelled)
  | nested span tagged inside ih =>
      rw [Member.spelled, Class.spelled_eq]
      exact .nested _ (Tag.shaped_erase tagged) (List.forall_mem_map.mpr ih)

theorem Class.Shaped.spelled {decl : Class} (shaped : decl.Shaped) : decl.spelled.Shaped := by
  rw [Class.spelled_eq]
  exact ⟨Tag.shaped_erase shaped.tagged,
    List.forall_mem_map.mpr fun member inside => (shaped.inside member inside).spelled⟩

theorem Declaration.Shaped.spelled {declaration : Declaration} (shaped : declaration.Shaped) :
    declaration.spelled.Shaped := by
  cases declaration with
  | importPath span path => exact shaped
  | type span decl => exact Class.Shaped.spelled shaped
  | function span decl => exact Method.Shaped.spelled shaped

theorem Program.Shaped.spelled {program : Program} (shaped : program.Shaped) :
    program.spelled.Shaped :=
  List.forall_mem_map.mpr fun declaration inside => (shaped declaration inside).spelled

end DataClass
