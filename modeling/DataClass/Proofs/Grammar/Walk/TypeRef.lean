import DataClass.Grammar.TypeRef
import DataClass.Proofs.Grammar.Walk.Lists
namespace DataClass.Grammar.Trial

open Walk

/-! Walking along type references. -/

def arrayMarks (start : Nat) : Nat → TypeRef → Trial TypeRef
  | 0, _ => endless
  | turns + 1, type => do
      if ← accept (.punctuation .leftBracket) then
        expect (.punctuation .rightBracket) "']' in array type"
        arrayMarks start turns (.array (← spanFrom start) type)
      else return type

mutual

def typeRef : Nat → Trial TypeRef
  | 0 => endless
  | turns + 1 => do
      let first ← current
      if first.kind = .keyword .voidWord then
        advance
        return .void first.span
      else
        let path ← dottedPath turns
        let arguments ← typeArguments turns
        let type := TypeRef.named (← spanFrom first.span.start) path arguments
        arrayMarks first.span.start turns type

def typeArguments : Nat → Trial (List TypeRef)
  | 0 => endless
  | turns + 1 => do
      if ← accept (.operator .lt) then
        let arguments ← typeRefs turns
        expect (.operator .gt) "'>' to close type arguments"
        return arguments
      else return []

def typeRefs : Nat → Trial (List TypeRef)
  | 0 => endless
  | turns + 1 => do
      let first ← typeRef turns
      return first :: (← laterTypeRefs turns)

def laterTypeRefs : Nat → Trial (List TypeRef)
  | 0 => endless
  | turns + 1 => do
      if ← accept (.punctuation .comma) then
        let first ← typeRef turns
        return first :: (← laterTypeRefs turns)
      else return []

end

def typeAfterColon (turns : Nat) : Trial (Option TypeRef) := do
  if ← accept (.punctuation .colon) then return some (← typeRef turns) else return none

variable {course : Course} {spot : course.Spot} {bound turns : Nat} {inner : Reader TypeRef}

theorem mirrors_arrayMarks (start : Nat) (enough : spot.ahead ≤ turns) (type : TypeRef) :
    Mirrors False (arrayMarks start · type) (Reader.arrayMarks start turns type) spot := by
  refine mirrors_loop (arrayMarks start) (Reader.arrayMarks start) (fun turns type spot _ again => ?_)
    enough (Nat.le_refl _) type
  refine mirrors_accept (by simp) (fun next further => ?_) (mirrors_pure type)
  refine (mirrors_expect _ (by simp)).bind (fun _ last onward _ => ?_) False.elim
  exact mirrors_spanFrom _ fun _ => again _ last (Nat.lt_of_lt_of_le further onward)

theorem mirrors_typeArguments (inside : MirrorsUpTo course True bound typeRef inner)
    (within : spot.ahead ≤ bound) :
    Mirrors False typeArguments (Reader.typeArguments inner) spot := by
  refine Mirrors.turn (mirrors_accept (by simp) (fun next further => ?_) (mirrors_pure []))
  have within := Nat.le_trans (Nat.le_of_lt (Course.Spot.ahead_lt further)) within
  refine (mirrors_commaSeparated (fun _ => rfl) (fun _ => rfl) inside within).bind
    (fun _ _ _ _ => ?_) False.elim
  exact (mirrors_expect _ (by simp)).loosen.map

theorem mirrors_typeRefWith (inside : MirrorsUpTo course True bound typeRef inner) :
    MirrorsUpTo course True (bound + 1) typeRef (Reader.typeRefWith inner) := by
  intro spot within
  refine Mirrors.turn (mirrors_current ?_)
  split
  · next nothing => exact mirrors_advance nothing (by simp) fun _ _ => mirrors_pure _
  · refine mirrors_dottedPath.bind (fun path next _ further => ?_) id
    have shorter := Course.Spot.ahead_lt (further trivial)
    refine (mirrors_typeArguments inside (by omega)).bind (fun arguments _ _ _ => ?_) False.elim
    exact mirrors_spanFrom _ fun _ => mirrors_remaining fun _ enough => mirrors_arrayMarks _ enough _

theorem mirrors_typeRef : Mirrors True typeRef Reader.typeRef spot :=
  mirrors_remaining fun turns enough => mirrors_layers (fun _ => rfl)
    (fun _ _ inside => mirrors_typeRefWith inside) (turns + 1) spot (Nat.le_succ_of_le enough)

theorem mirrors_typeAfterColon : Mirrors False typeAfterColon Reader.typeAfterColon spot :=
  mirrors_accept (by simp) (fun _ _ => mirrors_typeRef.loosen.map) (mirrors_pure none)

end DataClass.Grammar.Trial
