import DataClass.Grammar.TypeRef
import DataClass.Proofs.Grammar.Shape
import DataClass.Proofs.Grammar.Taking
import DataClass.Proofs.Program.Erasure
namespace DataClass

namespace Grammar.Reader

/-! A type that has a shape is read from the tokens it is written with, if nothing follows that
would make it longer. -/

/-- What may follow a type. -/
structure EndsType (rest : List TokenKind) : Prop where
  point : rest.head?.getD .endOfFile ≠ .punctuation .dot
  angle : rest.head?.getD .endOfFile ≠ .operator .lt
  bracket : rest.head?.getD .endOfFile ≠ .punctuation .leftBracket

theorem endsType_cons {kind : TokenKind} (rest : List TokenKind)
    (point : kind ≠ .punctuation .dot) (angle : kind ≠ .operator .lt)
    (bracket : kind ≠ .punctuation .leftBracket) : EndsType (kind :: rest) :=
  ⟨point, angle, bracket⟩

theorem endsType_comma (rest : List TokenKind) : EndsType (.punctuation .comma :: rest) := by
  constructor <;> simp

/-- Reading all types that are written with fewer tokens than a bound. -/
def ReadsTypes (reader : Reader TypeRef) (bound : Nat) : Prop :=
  ∀ type : TypeRef, type.Shaped → type.kinds.length < bound →
    Reads reader TypeRef.kinds TypeRef.erase EndsType type

variable {inner : Reader TypeRef} {bound : Nat} {cursor : Cursor} {rest : List TokenKind}

theorem takes_typeArguments {arguments : List TypeRef} (reads : ReadsTypes inner bound)
    (shaped : ∀ argument ∈ arguments, argument.Shaped)
    (small : (TokenKind.angled (arguments.map TypeRef.kinds)).length ≤ bound)
    (angle : rest.head?.getD .endOfFile ≠ .operator .lt)
    (ahead : cursor.kinds = TokenKind.angled (arguments.map TypeRef.kinds) ++ rest) :
    Takes (typeArguments inner) cursor rest
      (·.map TypeRef.erase = arguments.map TypeRef.erase) := by
  by_cases none : arguments = []
  · subst none
    exact takes_decline_bind ahead angle fun _ left => takes_pure left rfl
  · rw [TokenKind.angled_of_some (by simpa using none)] at small ahead
    rw [List.length_cons, List.length_append] at small
    rw [List.cons_append, List.append_assoc] at ahead
    have items : ∀ argument ∈ arguments,
        Reads inner TypeRef.kinds TypeRef.erase EndsType argument := fun argument inside =>
      reads argument (shaped argument inside) (by
        have := TokenKind.length_le_separated (List.mem_map_of_mem (f := TypeRef.kinds) inside)
        omega)
    apply takes_accept_bind ahead (by simp)
    intro next left
    refine (takes_commaSeparated none endsType_comma (endsType_cons _ ?_ ?_ ?_) (by simp) items
      left).bind fun items next left read => ?_
    · simp
    · simp
    · simp
    · exact (takes_expect _ left (by simp)).bind fun _ next left _ => takes_pure left read

theorem typeRefWith_reaches {type : TypeRef} (reads : ReadsTypes inner bound)
    (shaped : type.Shaped) (value : type.isVoid = false) (small : type.kinds.length ≤ bound)
    (point : rest.head?.getD .endOfFile ≠ .punctuation .dot)
    (angle : rest.head?.getD .endOfFile ≠ .operator .lt)
    (ahead : cursor.kinds = type.kinds ++ rest) :
    Reaches (typeRefWith inner) cursor rest (arrayMarks cursor.current.span.start)
      (·.erase = type.erase) := by
  induction shaped generalizing rest with
  | void span => cases value
  | @named span path arguments segments inside =>
      rw [TypeRef.kinds, TypeRef.kindsAll_eq_map] at small ahead
      rw [List.length_append] at small
      rw [List.append_assoc] at ahead
      have word : cursor.current.kind ≠ .keyword .voidWord := by
        cases path with
        | nil => exact absurd rfl segments
        | cons first names => simp [Cursor.current_kind_cons ahead]
      have pathEnds : (TokenKind.angled (arguments.map TypeRef.kinds) ++
          rest).head?.getD .endOfFile ≠ .punctuation .dot := by
        cases arguments with
        | nil => exact point
        | cons first others => simp [TokenKind.angled]
      change Reaches (if cursor.current.kind = .keyword .voidWord then _ else _) cursor rest _ _
      rw [if_neg word]
      apply Reaches.bind (takes_dottedPath segments ahead pathEnds)
      intro _ next left path
      apply Reaches.bind (takes_typeArguments reads inside (by omega) angle left)
      intro items next left read
      refine reaches_loop left (Nat.le_of_eq (by rw [← left, Cursor.length_kinds])) ?_
      rw [TypeRef.erase_named, TypeRef.erase_named, path, read]
  | @array span element item inside ih =>
      rw [TypeRef.kinds, List.append_assoc] at ahead
      rw [TypeRef.kinds, List.length_append] at small
      apply (ih item (by omega) (by simp) (by simp) ahead).step
      intro fuel got next left enough read
      cases fuel with
      | zero => simp at enough
      | succ fuel =>
          apply Reaches.bind (takes_accept left (by simp))
          intro _ next left here
          subst here
          apply Reaches.bind (takes_expect _ left (by simp))
          intro _ next left _
          refine reaches_loop left (by simp at enough; omega) ?_
          rw [TypeRef.erase_array, TypeRef.erase_array, read]

theorem readsTypes_typeRefAt (depth : Nat) : ReadsTypes (typeRefAt depth) depth := by
  induction depth with
  | zero => exact fun _ _ small => absurd small (Nat.not_lt_zero _)
  | succ depth ih =>
      intro type shaped small cursor rest ends ahead
      by_cases value : type.isVoid = false
      · apply (typeRefWith_reaches ih shaped value (by omega) ends.point ends.angle ahead).takes
        intro fuel got next left _ read
        cases fuel with
        | zero => exact takes_pure left read
        | succ fuel => exact takes_decline_bind left ends.bracket fun _ left => takes_pure left read
      · cases type with
        | void span =>
            change Takes (if cursor.current.kind = .keyword .voidWord then _ else _) cursor rest _
            rw [if_pos (Cursor.current_kind_cons ahead)]
            exact (takes_advance ahead (by simp)).bind fun _ next left _ => takes_pure left rfl
        | _ => exact absurd rfl value

theorem reads_typeRef {type : TypeRef} (shaped : type.Shaped) :
    Reads typeRef TypeRef.kinds TypeRef.erase EndsType type := by
  intro cursor rest ends ahead
  have small : type.kinds.length < cursor.rest.length + 1 := by
    rw [← cursor.length_kinds, ahead, List.length_append]
    omega
  rw [typeRef]
  exact takes_remaining (readsTypes_typeRefAt _ type shaped small cursor rest ends ahead)

theorem takes_typeAfterColon {type : Option TypeRef} (shaped : ∀ found ∈ type, found.Shaped)
    (ends : EndsType rest) (colon : rest.head?.getD .endOfFile ≠ .punctuation .colon)
    (ahead : cursor.kinds = TypeRef.colonKinds type ++ rest) :
    Takes typeAfterColon cursor rest (·.map TypeRef.erase = type.map TypeRef.erase) := by
  cases type with
  | none => exact takes_decline_bind ahead colon fun _ left => takes_pure left rfl
  | some type =>
      apply takes_accept_bind ahead (by simp)
      intro next left
      exact (reads_typeRef (shaped type rfl) next rest ends left).map fun _ read => by
        rw [Option.map_some, Option.map_some, read]

end Grammar.Reader

end DataClass
