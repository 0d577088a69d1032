import DataClass.Grammar.TypeRef
import DataClass.Proofs.Grammar.Consuming
import DataClass.Proofs.Grammar.Shape
namespace DataClass.Grammar.Reader

/-! A type that was read has a shape, and it is written with the tokens that were taken. -/

def SoundType (reader : Reader TypeRef) : Prop :=
  ∀ cursor, Consumes reader cursor (Exactly TypeRef.Shaped TypeRef.kinds)

theorem consumes_arrayMarks {cursor : Cursor} {type : TypeRef} (start fuel : Nat)
    (shaped : type.Shaped) (value : type.isVoid = false) :
    Consumes (arrayMarks start fuel type) cursor fun result taken =>
      result.Shaped ∧ result.kinds = type.kinds ++ taken := by
  induction fuel generalizing type cursor with
  | zero => exact consumes_pure ⟨shaped, by simp⟩
  | succ fuel ih =>
      refine consumes_accept_bind (by simp) (fun _ => ?_) (consumes_pure ⟨shaped, by simp⟩)
      apply (consumes_expect _ (by simp)).bind
      intro _ _ taken closing
      apply consumes_spanFrom start
      intro span
      refine (ih (.array span value shaped) rfl).weaken fun result more read => ⟨read.1, ?_⟩
      rw [read.2, closing, TypeRef.kinds]
      simp

theorem consumes_typeArguments {inner : Reader TypeRef} (sound : SoundType inner)
    {cursor : Cursor} :
    Consumes (typeArguments inner) cursor
      (Exactly (fun types => ∀ type ∈ types, type.Shaped)
        fun types => TokenKind.angled (types.map TypeRef.kinds)) := by
  refine consumes_accept_bind (by simp) (fun _ => ?_) (consumes_pure ⟨by simp, rfl⟩)
  apply (consumes_commaSeparated sound).bind
  intro types _ taken read
  refine (consumes_expect _ (by simp)).bind fun _ _ more closing => consumes_pure ⟨read.2.1, ?_⟩
  dsimp only
  rw [TokenKind.angled_of_some (by simpa using read.1), closing, read.2.2, List.append_nil]

theorem soundType_typeRefAt (depth : Nat) : SoundType (typeRefAt depth) := by
  induction depth with
  | zero => exact fun _ => consumes_failExpected _
  | succ depth ih =>
      intro cursor
      refine consumes_current ?_
      dsimp only
      split
      · next word =>
          apply (consumes_advance word (by simp)).bind
          intro _ _ taken same
          exact consumes_pure ⟨.void _, by rw [same]; rfl⟩
      · apply consumes_dottedPath.bind
        intro path _ taken pathRead
        apply (consumes_typeArguments ih).bind
        intro types _ more read
        refine consumes_spanFrom _ fun span => consumes_remaining ?_
        refine (consumes_arrayMarks _ _ (.named span pathRead.1 read.1) rfl).weaken
          fun result last marks => ⟨marks.1, ?_⟩
        rw [marks.2, TypeRef.kinds, TypeRef.kindsAll_eq_map, pathRead.2, read.2, List.append_assoc]

theorem soundType_typeRef : SoundType typeRef := fun _ => by
  rw [typeRef]
  exact consumes_remaining (soundType_typeRefAt _ _)

theorem consumes_typeAfterColon {cursor : Cursor} :
    Consumes typeAfterColon cursor
      (Exactly (fun type => ∀ found ∈ type, found.Shaped) TypeRef.colonKinds) := by
  refine consumes_accept_bind (by simp) (fun next => ?_) (consumes_pure ⟨by simp, rfl⟩)
  refine (soundType_typeRef next).bind fun type _ taken read => consumes_pure ⟨?_, ?_⟩
  · simpa using read.1
  · rw [read.2, TypeRef.colonKinds, List.append_nil]

end DataClass.Grammar.Reader
