import DataClass.Proofs.Accessor.Quiet
namespace DataClass

/-! What is planned for a class that has been written and read back. Its accessors are the same ones,
but for one: a setter of a field `inf` that assigned an infinite number is read as the setter that
assigns its parameter. -/

namespace Expr

variable {expr : Expr} {name : String}

theorem erase_of_spelled_this (same : expr.spelled.erase = .this .origin) :
    expr.erase = .this .origin := by
  cases expr with
  | float span value =>
      rw [spelled] at same
      split at same <;> simp at same
  | _ => simp_all [spelled]

theorem erase_of_spelled_field
    (same : expr.spelled.erase = .field .origin (.this .origin) name) :
    expr.erase = .field .origin (.this .origin) name := by
  cases expr with
  | float span value =>
      rw [spelled] at same
      split at same <;> simp at same
  | field span base other =>
      simp only [spelled, erase_field, field.injEq, true_and] at same
      rw [erase_field, erase_of_spelled_this same.1, same.2]
  | _ => simp [spelled] at same

theorem erase_of_spelled_ident (same : expr.spelled.erase = .ident .origin name) :
    expr.erase = .ident .origin name ∨
      name = "inf" ∧ ∃ value : Binary64, value.isFinite = false ∧ expr.erase = .float .origin value := by
  cases expr with
  | float span value =>
      rw [spelled] at same
      split at same
      · simp at same
      · next infinite =>
          simp only [erase_ident, ident.injEq, true_and] at same
          exact .inr ⟨same.symm, value, eq_false_of_ne_true infinite, rfl⟩
  | ident span other => exact .inl (by simpa [spelled] using same)
  | _ => simp [spelled] at same

end Expr

namespace Accessor

variable {name : String} {type : TypeRef} {span : Span} {present : Method}

/-- The setter of a field, but with a number that is assigned in place of the parameter. -/
def constantSetter (name : String) (type : TypeRef) (value : Binary64) : Method :=
  { setter name type .origin with
    body := [.assign .origin (thisField name .origin) (.float .origin value)] }

theorem spelled_getter : (getter name type span).spelled.erase = (getter name type span).erase := by
  simp [getter, thisField, Method.spelled, Stmt.spelled, Expr.spelled, TypeRef.erase_erase]

theorem spelled_setter : (setter name type span).spelled.erase = (setter name type span).erase := by
  simp [setter, thisField, Method.spelled, Stmt.spelled, Expr.spelled, TypeRef.erase_erase]

theorem spelled_of_erase {method : Method} (kept : method.spelled.erase = method.erase)
    (same : present.erase = method.erase) : present.spelled.erase = method.erase := by
  rw [← kept, ← present.spelled_erase, same, method.spelled_erase]

theorem spelled_erase_eq (method : Method) :
    method.spelled.erase = { method.erase with body := (method.body.map Stmt.spelled).map Stmt.erase } := by
  obtain ⟨tags, isPublic, other, params, returnType, body⟩ := method
  simp only [Method.spelled, Method.erase_mk, Tag.map_erase_erase, Param.map_erase_erase,
    TypeRef.erase_erase]

theorem erase_of_spelled {method : Method} (same : present.spelled.erase = method.erase) :
    present.erase = { method.erase with body := present.body.map Stmt.erase } := by
  rw [spelled_erase_eq] at same
  rw [← same]
  rfl

theorem exists_single_of_spelled {body : List Stmt} {stmt : Stmt}
    (same : (body.map Stmt.spelled).map Stmt.erase = [stmt]) :
    ∃ only, body = [only] ∧ only.spelled.erase = stmt := by
  match body, same with
  | [only], same => exact ⟨only, rfl, by simpa using same⟩
  | _ :: _ :: _, same => simp at same

theorem body_of_spelled {method : Method} (same : present.spelled.erase = method.erase) :
    (present.body.map Stmt.spelled).map Stmt.erase = method.body.map Stmt.erase := by
  rw [spelled_erase_eq] at same
  exact congrArg Method.body same

theorem erase_of_spelled_getter (same : present.spelled.erase = (getter name type span).erase) :
    present.erase = (getter name type span).erase := by
  obtain ⟨only, body, read⟩ := exists_single_of_spelled (body_of_spelled same)
  rw [erase_of_spelled same, body]
  cases only with
  | giveBack place value =>
      cases value with
      | none => simp [Stmt.spelled] at read
      | some value =>
          have returned : value.spelled.erase = .field .origin (.this .origin) name := by
            simpa [Stmt.spelled, thisField] using read
          simp [getter, thisField, Expr.erase_of_spelled_field returned]
  | choose place condition thenBody elseBody => cases elseBody <;> simp [Stmt.spelled] at read
  | _ => simp [Stmt.spelled] at read

/-- What is read as a setter is one, or assigns an infinite number to the field `inf`. -/
theorem erase_of_spelled_setter (same : present.spelled.erase = (setter name type span).erase) :
    present.erase = (setter name type span).erase ∨
      name = "inf" ∧ ∃ value : Binary64, value.isFinite = false ∧
        present.erase = (constantSetter name type value).erase := by
  obtain ⟨only, body, read⟩ := exists_single_of_spelled (body_of_spelled same)
  rw [erase_of_spelled same, body]
  cases only with
  | assign place target value =>
      obtain ⟨assigned, given⟩ : target.spelled.erase = .field .origin (.this .origin) name ∧
          value.spelled.erase = .ident .origin name := by
        simpa [Stmt.spelled, thisField] using read
      have place := Expr.erase_of_spelled_field assigned
      rcases Expr.erase_of_spelled_ident given with named | ⟨infinity, number, infinite, named⟩
      · exact .inl (by simp [setter, thisField, place, named])
      · exact .inr ⟨infinity, number, infinite, by simp [constantSetter, setter, thisField, place, named]⟩
  | choose place condition thenBody elseBody => cases elseBody <;> simp [Stmt.spelled] at read
  | _ => simp [Stmt.spelled] at read

theorem spelled_constantSetter {value : Binary64} (infinite : value.isFinite = false) :
    (constantSetter "inf" type value).spelled.erase = (setter "inf" type span).erase := by
  simp [constantSetter, setter, thisField, Method.spelled, Stmt.spelled, Expr.spelled, infinite,
    TypeRef.erase_erase]

variable {decl old : Class}

theorem methodNames_of_erase (same : decl.erase = old.spelled.erase) :
    decl.methodNames = old.methodNames := by
  have methods := Class.memberwise_erase.methods decl
  rw [same, Class.memberwise_erase.methods, Class.memberwise_spelled.methods] at methods
  have names := congrArg (List.map Method.name) methods
  simpa [Class.methodNames, Method.spelled, Method.erase, Method.mapSpans, Function.comp_def]
    using names.symm

theorem has_iff_rereads (same : decl.erase = old.spelled.erase) {method : Method} :
    decl.Has method ↔ old.Rereads method := by
  have methods := Class.memberwise_erase.methods decl
  rw [same, Class.memberwise_erase.methods, Class.memberwise_spelled.methods] at methods
  have has : decl.Has method ↔ method.erase ∈ decl.methods.map Method.erase := by
    rw [List.mem_map]
    rfl
  have rereads : old.Rereads method ↔
      method.erase ∈ (old.methods.map Method.spelled).map Method.erase := by
    simp [Class.Rereads]
  rw [has, rereads, methods]

theorem outlines_of_erase (same : decl.erase = old.spelled.erase) : decl.outlines = old.outlines := by
  rw [← Class.memberwise_erase.outlines decl, same, Class.memberwise_erase.outlines,
    Class.memberwise_spelled.outlines]

theorem accessible_of_erase (same : decl.erase = old.spelled.erase) {name : String}
    {type : TypeRef} : decl.Accessible name type ↔ old.Accessible name type := by
  have outlines := outlines_of_erase same
  constructor
  · rintro ⟨listed, valid, value⟩
    exact ⟨outlines ▸ listed, valid, value⟩
  · rintro ⟨listed, valid, value⟩
    exact ⟨outlines ▸ listed, valid, value⟩

/-- A field `inf` that has no getter, and no setter but one that assigns an infinite number. -/
structure AssignsInfinity (decl : Class) (type : TypeRef) : Prop where
  accessible : decl.Accessible "inf" type
  noGetter : accessorName .getter "inf" ∉ decl.methodNames
  noSetter : ¬ decl.Has (setter "inf" type .origin)
  constant : ∃ value : Binary64, value.isFinite = false ∧ decl.Has (constantSetter "inf" type value)

theorem AssignsInfinity.rereads (infinity : AssignsInfinity decl type) :
    decl.Rereads (setter "inf" type .origin) := by
  obtain ⟨value, infinite, present, inside, same⟩ := infinity.constant
  refine ⟨present, inside, ?_⟩
  rw [← present.spelled_erase, same, Method.spelled_erase, spelled_constantSetter infinite]

theorem calm_of_calm {policy : ConflictPolicy}
    (calm : Calm policy decl.methodNames decl.Has name type)
    (accessible : decl.Accessible name type)
    (finite : ¬ (policy = .error ∧ AssignsInfinity decl type)) :
    Calm policy decl.methodNames decl.Rereads name type := by
  rcases calm with ⟨strict, ⟨present, other⟩ | ⟨present, other⟩⟩ | both
  · refine .inl ⟨strict, .inl ⟨present, ?_⟩⟩
    rintro ⟨method, inside, same⟩
    exact other ⟨method, inside, erase_of_spelled_getter same⟩
  · by_cases rereads : decl.Rereads (setter name type .origin)
    · obtain ⟨method, inside, same⟩ := rereads
      rcases erase_of_spelled_setter same with kept | ⟨rfl, value, infinite, constant⟩
      · exact absurd ⟨method, inside, kept⟩ other
      · by_cases getter : accessorName .getter "inf" ∈ decl.methodNames
        · exact .inr ⟨getter, present⟩
        · exact absurd ⟨strict, accessible, getter, other, value, infinite, method, inside, constant⟩
            finite
    · exact .inl ⟨strict, .inr ⟨present, rereads⟩⟩
  · exact .inr both

/-- Where nothing is planned for a class, nothing is planned for what is read back of it, but for the
getter of a field `inf`. -/
theorem planClass_reread_iff {policy : ConflictPolicy} (writable : old.Writable)
    (readable : decl.Writable) (same : decl.erase = old.spelled.erase)
    (nothing : (planClass policy old).members = []) :
    (planClass policy decl).members = [] ↔
      ¬ (policy = .error ∧ ∃ type, AssignsInfinity old type) := by
  have has : decl.Has = old.Rereads := funext fun method => propext (has_iff_rereads same)
  rw [planClass_eq_nil_iff writable] at nothing
  rw [planClass_eq_nil_iff readable, methodNames_of_erase same, has]
  simp only [accessible_of_erase same]
  constructor
  · rintro calm ⟨strict, type, infinity⟩
    rcases calm "inf" type infinity.accessible with
      ⟨_, ⟨present, _⟩ | ⟨_, other⟩⟩ | ⟨present, _⟩
    · exact infinity.noGetter present
    · exact other infinity.rereads
    · exact infinity.noGetter present
  · intro finite name type accessible
    exact calm_of_calm (nothing name type accessible) accessible
      fun ⟨strict, infinity⟩ => finite ⟨strict, type, infinity⟩

end Accessor

end DataClass
