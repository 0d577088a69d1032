import DataClass.Grammar.Declaration
import DataClass.Proofs.Grammar.Walk.Stmt
namespace DataClass.Grammar.Trial

open Walk
open Reader (tagNotAllowed)

/-! Walking along members, classes and declarations. -/

def tags : Nat → Trial (List Tag)
  | 0 => endless
  | turns + 1 => do
      let first ← current
      if first.kind = .punctuation .at then
        advance
        let path ← dottedPath turns
        let span ← spanFrom first.span.start
        return ⟨span, path⟩ :: (← tags turns)
      else return []

def modifiers (turns : Nat) : Trial Modifiers := do
  let first ← current
  let tags ← tags turns
  if ← accept (.keyword .pubWord) then return ⟨tags, true, first.span.start⟩
  else
    let _ ← accept (.keyword .privWord)
    return ⟨tags, false, first.span.start⟩

def withoutTags (place : String) (modifiers : Modifiers) : Trial Unit :=
  match modifiers.tags with
  | [] => return ()
  | tag :: _ => throw (tagNotAllowed place tag.span)

def param (turns : Nat) : Trial Param := do
  let first ← current
  let name ← identifier
  expect (.punctuation .colon) "':' after parameter name"
  let type ← typeRef turns
  return ⟨first.span.merge type.span, name, type⟩

mutual

def params : Nat → Trial (List Param)
  | 0 => endless
  | turns + 1 => do
      expect (.punctuation .leftParen) "'(' before parameters"
      if ← accept (.punctuation .rightParen) then return []
      else
        let items ← someParams turns
        expect (.punctuation .rightParen) "')' after parameters"
        return items

def someParams : Nat → Trial (List Param)
  | 0 => endless
  | turns + 1 => do
      let first ← param turns
      return first :: (← laterParams turns)

def laterParams : Nat → Trial (List Param)
  | 0 => endless
  | turns + 1 => do
      if ← accept (.punctuation .comma) then
        let first ← param turns
        return first :: (← laterParams turns)
      else return []

end

def method (turns : Nat) (modifiers : Modifiers) : Trial Method := do
  let name ← identifier
  let params ← params turns
  let written ← typeAfterColon turns
  let returnType := written.getD (.void (← previousSpan))
  let body ← block turns
  return ⟨modifiers.tags, modifiers.isPublic, name, params, returnType, body⟩

def constructor (turns : Nat) (modifiers : Modifiers) : Trial Constructor := do
  let params ← params turns
  let body ← block turns
  return ⟨modifiers.tags, modifiers.isPublic, params, body⟩

def field (turns : Nat) (modifiers : Modifiers) : Trial Field := do
  let name ← identifier
  let type ← typeAfterColon turns
  let default ← expressionAfterEquals turns
  expect (.punctuation .semicolon) "';' after field"
  return ⟨modifiers.tags, modifiers.isPublic, name, type, default⟩

mutual

def member : Nat → Trial Member
  | 0 => endless
  | turns + 1 => do
      let modifiers ← modifiers turns
      let start := modifiers.start
      match ← currentKind with
      | .keyword .fnWord =>
          advance
          let decl ← method turns modifiers
          return .method (← spanFrom start) decl
      | .keyword .newWord =>
          advance
          let decl ← constructor turns modifiers
          return .constructor (← spanFrom start) decl
      | .keyword .initWord =>
          withoutTags "initializers" modifiers
          advance
          let body ← block turns
          return .initializer (← spanFrom start) body
      | .keyword .classWord =>
          advance
          let decl ← classFrom turns modifiers
          return .nested (← spanFrom start) decl
      | .identifier _ =>
          let decl ← field turns modifiers
          return .field (← spanFrom start) decl
      | _ => failExpected "class member"

def classFrom : Nat → Modifiers → Trial Class
  | 0, _ => endless
  | turns + 1, modifiers => do
      let name ← identifier
      let members ← classBody turns
      return ⟨modifiers.tags, modifiers.isPublic, name, members⟩

def classBody : Nat → Trial (List Member)
  | 0 => endless
  | turns + 1 => do
      expect (.punctuation .leftBrace) "'\x7b' after class name"
      let members ← members turns
      expect (.punctuation .rightBrace) "'\x7d' to close class body"
      return members

/-- The members up to the end of a class. Faulty ones are reported and left out. -/
def members : Nat → Trial (List Member)
  | 0 => endless
  | turns + 1 => (do
      if Recovery.members.isEnd (← currentKind) then return .ok []
      else
        match ← (member turns).run with
        | .ok first => (do return first :: (← members turns) : Trial (List Member)).run
        | .error fault =>
            report fault
            recover .members turns
            (members turns).run
      : Walk (Except Diagnostic (List Member)))

end

def declaration (turns : Nat) : Trial Declaration := do
  let modifiers ← modifiers turns
  let start := modifiers.start
  match ← currentKind with
  | .keyword .importWord =>
      withoutTags "imports" modifiers
      advance
      let path ← dottedPath turns
      expect (.punctuation .semicolon) "';' after import"
      return .importPath (← spanFrom start) path
  | .keyword .classWord =>
      advance
      let decl ← classFrom turns modifiers
      return .type (← spanFrom start) decl
  | .keyword .fnWord =>
      advance
      let decl ← method turns modifiers
      return .function (← spanFrom start) decl
  | _ => failExpected "declaration ('class', 'fn' or 'import')"

/-- All declarations up to the end. Faulty ones are reported and left out. -/
def declarations : Nat → Trial (List Declaration)
  | 0 => endless
  | turns + 1 => (do
      if Recovery.declarations.isEnd (← currentKind) then return .ok []
      else
        match ← (declaration turns).run with
        | .ok first => (do return first :: (← declarations turns) : Trial (List Declaration)).run
        | .error fault =>
            report fault
            recover .declarations turns
            (declarations turns).run
      : Walk (Except Diagnostic (List Declaration)))

variable {course : Course} {spot : course.Spot} {bound turns : Nat} {inner : Reader Member}

theorem mirrors_tags (enough : spot.ahead ≤ turns) : Mirrors False tags (Reader.tags turns) spot := by
  refine mirrors_loop (fun turns (_ : Unit) => tags turns) (fun turns _ => Reader.tags turns)
    (fun turns _ spot _ again => ?_) enough (Nat.le_refl _) ()
  refine mirrors_current ?_
  split
  · next sign =>
      refine mirrors_advance sign (by simp) fun next further => ?_
      refine mirrors_dottedPath.bind (fun path last onward _ => mirrors_spanFrom _ fun _ => ?_) False.elim
      exact (again () last (Nat.lt_of_lt_of_le further onward)).map
  · exact mirrors_pure []

theorem mirrors_modifiers : Mirrors False modifiers Reader.modifiers spot := by
  refine mirrors_current (mirrors_remaining fun _ enough => ?_)
  refine (mirrors_tags enough).bind (fun _ _ _ _ => ?_) id
  refine mirrors_accept (by simp) (fun _ _ => mirrors_pure _) ?_
  exact mirrors_accept_bind (by simp) (fun _ _ => mirrors_pure _) (mirrors_pure _)

/-- Tags that may not stand there end the reading. -/
theorem mirrors_withoutTags {α : Type} {takes : Prop} (place : String) (modifiers : Modifiers)
    {one : Nat → Trial α} {two : Reader α} (later : Mirrors takes one two spot) :
    Mirrors takes (fun turns => withoutTags place modifiers >>= fun _ => one turns)
      (Reader.withoutTags place modifiers >>= fun _ => two) spot := by
  unfold withoutTags Reader.withoutTags
  cases modifiers.tags with
  | nil => exact later
  | cons tag tags => exact mirrors_throw (tagNotAllowed place tag.span)

theorem mirrors_param : Mirrors True param Reader.param spot := by
  refine mirrors_current ?_
  refine mirrors_identifier.bind (fun _ _ _ _ => ?_) id
  refine (mirrors_expect _ (by simp)).bind (fun _ _ _ _ => ?_) False.elim
  exact mirrors_typeRef.loosen.map

theorem mirrors_params : Mirrors True params Reader.params spot :=
  mirrors_parenthesized (fun _ => rfl) (fun _ => rfl) (fun _ => rfl) (fun _ _ => mirrors_param)
    (Nat.le_succ_of_le (Nat.le_refl spot.ahead))

theorem mirrors_method (modifiers : Modifiers) :
    Mirrors True (method · modifiers) (Reader.method modifiers) spot := by
  refine mirrors_identifier.bind (fun _ _ _ _ => ?_) id
  refine mirrors_params.bind (fun _ _ _ _ => ?_) False.elim
  refine mirrors_typeAfterColon.bind (fun _ _ _ _ => mirrors_previousSpan fun _ => ?_) False.elim
  exact mirrors_block.loosen.map

theorem mirrors_constructor (modifiers : Modifiers) :
    Mirrors True (constructor · modifiers) (Reader.constructor modifiers) spot :=
  mirrors_params.bind (fun _ _ _ _ => mirrors_block.loosen.map) id

theorem mirrors_field (modifiers : Modifiers) :
    Mirrors True (field · modifiers) (Reader.field modifiers) spot := by
  refine mirrors_identifier.bind (fun _ _ _ _ => ?_) id
  refine mirrors_typeAfterColon.bind (fun _ _ _ _ => ?_) False.elim
  refine mirrors_expressionAfterEquals.bind (fun _ _ _ _ => ?_) False.elim
  exact (mirrors_expect _ (by simp)).loosen.map

theorem mirrors_classWith (inside : MirrorsUpTo course True bound member inner)
    (within : spot.ahead ≤ bound) (modifiers : Modifiers) :
    Mirrors True (classFrom · modifiers) (Reader.classWith inner modifiers) spot := by
  refine Mirrors.turn (mirrors_identifier.bind (fun _ next onward _ => ?_) id)
  have within := Nat.le_trans (Course.Spot.ahead_le onward) within
  exact (mirrors_braced ⟨fun _ => rfl, fun _ _ => rfl, fun _ _ => rfl⟩ (fun _ => rfl) inside
    within).loosen.map

theorem mirrors_memberWith (inside : MirrorsUpTo course True bound member inner) :
    MirrorsUpTo course True (bound + 1) member (Reader.memberWith inner) := by
  intro spot within
  refine Mirrors.turn (mirrors_modifiers.before fun modifiers next onward _ => mirrors_currentKind ?_)
  cases word : next.cursor.current.kind with
  | identifier name => exact (mirrors_field modifiers).placed
  | keyword keyword =>
      cases keyword with
      | fnWord => exact mirrors_advance word (by simp) fun _ _ => (mirrors_method modifiers).loosen.placed
      | newWord =>
          exact mirrors_advance word (by simp) fun _ _ => (mirrors_constructor modifiers).loosen.placed
      | initWord =>
          exact mirrors_withoutTags _ modifiers
            (mirrors_advance word (by simp) fun _ _ => mirrors_block.loosen.placed)
      | classWord =>
          refine mirrors_advance word (by simp) fun last further => ?_
          have shorter := Course.Spot.ahead_lt (Nat.lt_of_le_of_lt onward further)
          exact (mirrors_classWith inside (by omega) modifiers).loosen.placed
      | _ => exact mirrors_failExpected _
  | _ => exact mirrors_failExpected _

theorem mirrors_member : Mirrors True member Reader.member spot :=
  mirrors_remaining fun turns enough => mirrors_layers (fun _ => rfl)
    (fun _ _ inside => mirrors_memberWith inside) (turns + 1) spot (Nat.le_succ_of_le enough)

theorem mirrors_declaration : Mirrors True declaration Reader.declaration spot := by
  refine mirrors_modifiers.before fun modifiers next _ _ => mirrors_currentKind ?_
  cases word : next.cursor.current.kind with
  | keyword keyword =>
      cases keyword with
      | importWord =>
          refine mirrors_withoutTags _ modifiers (mirrors_advance word (by simp) fun _ _ => ?_)
          exact mirrors_dottedPath.bind
            (fun _ _ _ _ => (mirrors_expect _ (by simp)).loosen.placed) False.elim
      | classWord =>
          exact mirrors_advance word (by simp) fun last _ =>
            (mirrors_classWith (fun _ _ => mirrors_member) (Nat.le_refl _) modifiers).loosen.placed
      | fnWord => exact mirrors_advance word (by simp) fun _ _ => (mirrors_method modifiers).loosen.placed
      | _ => exact mirrors_failExpected _
  | _ => exact mirrors_failExpected _

end DataClass.Grammar.Trial
