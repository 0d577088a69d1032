import DataClass.Proofs.Grammar.Completeness.Declaration
import DataClass.Proofs.Grammar.Leftover
namespace DataClass

/-! Type arguments with a comparison in the place of the `>` that closes them. The type is refused at the
comparison, and reading goes on behind the next semicolon. -/

namespace TokenKind

/-! The tokens of an expression. None of them begins or ends a part of a body, so behind a fault they
are skipped up to the semicolon. -/

/-- A token that no part of a body begins at, and none ends. -/
def isInline : TokenKind → Bool
  | .keyword word => [.trueWord, .falseWord, .nullWord, .thisWord].contains word
  | .punctuation mark => [.leftParen, .rightParen, .comma, .dot].contains mark
  | .endOfFile => false
  | _ => true

theorem inner_of_isInline {token : Token} (inline : token.kind.isInline = true) : token.Inner := by
  obtain ⟨kind, span⟩ := token
  cases kind with
  | punctuation mark => cases mark <;> simp_all [Token.Inner, isInline]
  | endOfFile => cases inline
  | _ => simp [Token.Inner]

theorem isRestart_of_isInline {kind : TokenKind} (inline : kind.isInline = true)
    (part : Grammar.Part) : part.recovery.isRestart kind = false := by
  cases kind with
  | punctuation mark => cases mark <;> first | rfl | cases inline
  | keyword word => cases part <;> cases word <;> first | rfl | cases inline
  | _ => rfl

theorem isInline_afterCommas {parts : List (List TokenKind)}
    (each : ∀ part ∈ parts, part.all isInline = true) : (afterCommas parts).all isInline = true := by
  rw [afterCommas, List.all_flatMap, List.all_eq_true]
  exact fun part inside => by rw [List.all_cons, each part inside]; rfl

theorem isInline_parenthesized {parts : List (List TokenKind)}
    (each : ∀ part ∈ parts, part.all isInline = true) :
    (parenthesized parts).all isInline = true := by
  cases parts with
  | nil => rfl
  | cons first rest =>
      obtain ⟨here, later⟩ := List.forall_mem_cons.mp each
      simp [parenthesized, separated, here, isInline_afterCommas later, isInline]

end TokenKind

namespace Expr

open TokenKind

mutual

theorem isInline_kinds : (expr : Expr) → expr.kinds.all isInline = true
  | .int _ _ | .float _ _ | .string _ _ | .null _ | .ident _ _ | .this _ => by
      rw [kinds]
      rfl
  | .bool _ value => by
      rw [kinds]
      cases value <;> rfl
  | .field _ base _ => by
      rw [kinds, List.all_append, base.isInline_kinds]
      rfl
  | .call _ callee arguments => by
      rw [kinds, List.all_append, callee.isInline_kinds, Bool.true_and]
      exact isInline_parenthesized (isInline_kindsAll arguments)
  | .methodCall _ receiver _ arguments => by
      rw [kinds, List.all_append, receiver.isInline_kinds, Bool.true_and]
      exact isInline_parenthesized (isInline_kindsAll arguments)
  | .unary _ _ operand => by
      rw [kinds, List.all_cons, operand.isInline_kinds]
      rfl
  | .binary _ left _ right => by
      rw [kinds, List.all_append, List.all_cons, left.isInline_kinds, right.isInline_kinds]
      rfl
  | .paren _ inner => by
      rw [kinds, List.all_cons, List.all_append, inner.isInline_kinds]
      rfl

theorem isInline_kindsAll : (exprs : List Expr) → ∀ part ∈ kindsAll exprs, part.all isInline = true
  | [] => nofun
  | expr :: rest => List.forall_mem_cons.mpr ⟨expr.isInline_kinds, isInline_kindsAll rest⟩

end

end Expr

namespace Grammar

open TokenKind

namespace Reader

/-! ### Readers that miss something -/

variable {α β : Type} {cursor : Cursor} {middle rest : List TokenKind} {expected : String}
  {got : β → Prop}

/-- At a cursor the reader fails in front of tokens of the kinds `rest`. It says that something else
was expected in the place of the first of them, and reports nothing before. -/
def Misses (reader : Reader α) (cursor : Cursor) (rest : List TokenKind) (expected : String) : Prop :=
  ∃ next, reader cursor = .failure (missing expected next.current) next ∧ next.kinds = rest ∧
    next.reported = cursor.reported

theorem Misses.bind {reader : Reader β} {following : β → Reader α}
    (first : Misses reader cursor rest expected) :
    Misses (reader >>= following) cursor rest expected := by
  obtain ⟨next, read, same⟩ := first
  exact ⟨next, bind_failure read, same⟩

theorem Takes.misses {reader : Reader β} {following : β → Reader α}
    (first : Takes reader cursor middle got)
    (goes : ∀ result next, next.kinds = middle → got result →
      Misses (following result) next rest expected) :
    Misses (reader >>= following) cursor rest expected := by
  obtain ⟨result, next, read, left, quiet, good⟩ := first
  obtain ⟨last, fails, same, silent⟩ := goes result next left good
  exact ⟨last, (bind_value read).trans fails, same, silent.trans quiet⟩

theorem misses_failExpected (ahead : cursor.kinds = rest) :
    Misses (failExpected expected : Reader α) cursor rest expected := ⟨cursor, rfl, ahead, rfl⟩

theorem misses_expect {kind : TokenKind} (ahead : cursor.kinds = rest)
    (other : rest.head?.getD .endOfFile ≠ kind) :
    Misses (expect kind expected) cursor rest expected :=
  (takes_decline ahead other).misses fun _ _ left here => by
    subst here
    exact misses_failExpected left

theorem misses_accept {kind : TokenKind} {found other : Reader α}
    (ahead : cursor.kinds = kind :: middle) (more : kind ≠ .endOfFile)
    (goes : ∀ next, next.kinds = middle → Misses found next rest expected) :
    Misses (accept kind >>= fun here => if here = true then found else other) cursor rest expected :=
  (takes_accept ahead more).misses fun _ next left here => by
    subst here
    exact goes next left

theorem misses_current {following : Token → Reader α}
    (goes : Misses (following cursor.current) cursor rest expected) :
    Misses (current >>= following) cursor rest expected := goes

theorem misses_currentKind {following : TokenKind → Reader α} {kind : TokenKind}
    (ahead : cursor.kinds = kind :: middle) (goes : Misses (following kind) cursor rest expected) :
    Misses (currentKind >>= following) cursor rest expected := by
  rw [← Cursor.current_kind_cons ahead] at goes
  exact goes

/-! ### Type arguments in front of a comparison -/

/-- The tokens of a type with arguments, without the `>` behind them. -/
def unclosedKinds (path : List String) (arguments : List TypeRef) : List TokenKind :=
  pathKinds path ++ .operator .lt :: separated (arguments.map TypeRef.kinds)

/-- What is expected behind type arguments. -/
def closingAngle : String := "'>' to close type arguments"

variable {path : List String} {arguments : List TypeRef}

theorem misses_typeArguments {inner : Reader TypeRef} {bound : Nat} (reads : ReadsTypes inner bound)
    (some : arguments ≠ []) (shaped : ∀ argument ∈ arguments, argument.Shaped)
    (small : (separated (arguments.map TypeRef.kinds)).length < bound)
    (ahead : cursor.kinds = .operator .lt ::
      (separated (arguments.map TypeRef.kinds) ++ .operator .gtEq :: rest)) :
    Misses (typeArguments inner) cursor (.operator .gtEq :: rest) closingAngle := by
  have items : ∀ argument ∈ arguments,
      Reads inner TypeRef.kinds TypeRef.erase EndsType argument := fun argument inside =>
    reads argument (shaped argument inside) (Nat.lt_of_le_of_lt
      (length_le_separated (List.mem_map_of_mem inside)) small)
  refine misses_accept ahead (by simp) fun next left => ?_
  refine (takes_commaSeparated some endsType_comma
    (endsType_cons rest (by simp) (by simp) (by simp)) (by simp) items left).misses fun _ _ left _ => ?_
  exact (misses_expect left (by simp)).bind

/-- A type whose arguments have a `>=` in the place of the `>` is refused at this token. -/
theorem misses_typeRef (segments : path ≠ []) (some : arguments ≠ [])
    (shaped : ∀ argument ∈ arguments, argument.Shaped)
    (ahead : cursor.kinds = unclosedKinds path arguments ++ .operator .gtEq :: rest) :
    Misses typeRef cursor (.operator .gtEq :: rest) closingAngle := by
  have length := congrArg List.length ahead
  rw [cursor.length_kinds, unclosedKinds, List.length_append, List.length_append, List.length_cons]
    at length
  rw [unclosedKinds, List.append_assoc, List.cons_append] at ahead
  have word : cursor.current.kind ≠ .keyword .voidWord := by
    cases path with
    | nil => exact absurd rfl segments
    | cons first names => simp [Cursor.current_kind_cons ahead]
  change Misses (if cursor.current.kind = .keyword .voidWord then _ else _) cursor _ _
  rw [if_neg word]
  refine (takes_dottedPath segments ahead (by simp)).misses fun _ next left _ => Misses.bind ?_
  exact misses_typeArguments (readsTypes_typeRefAt _) some shaped (by omega) left

/-! ### Where the type is declared -/

/-- The tokens in front of the type that a field or a variable is declared with. -/
inductive BeforeType : Part → List TokenKind → Prop where
  | field (name : String) : BeforeType .member [.identifier name, .punctuation .colon]
  | binding (name : String) :
      BeforeType .statement [.keyword .letWord, .identifier name, .punctuation .colon]

variable {part : Part} {lead : List TokenKind}

theorem BeforeType.exists_head (declares : BeforeType part lead) : ∃ kind rest, lead = kind :: rest ∧
    part.recovery.isEnd kind = false ∧ kind ≠ .keyword .elseWord := by
  cases declares <;> exact ⟨_, _, rfl, rfl, by simp⟩

theorem misses_readerAt (declares : BeforeType part lead) (segments : path ≠ [])
    (some : arguments ≠ []) (shaped : ∀ argument ∈ arguments, argument.Shaped) (depth : Nat)
    (ahead : cursor.kinds = lead ++ (unclosedKinds path arguments ++ .operator .gtEq :: rest)) :
    Misses (part.readerAt (depth + 1)) cursor (.operator .gtEq :: rest) closingAngle := by
  have typed {γ : Type} {following : Option TypeRef → Reader γ} {cursor : Cursor}
      (ahead : cursor.kinds = .punctuation .colon ::
        (unclosedKinds path arguments ++ .operator .gtEq :: rest)) :
      Misses (typeAfterColon >>= following) cursor (.operator .gtEq :: rest) closingAngle :=
    (misses_accept ahead (by simp) fun _ left =>
      (misses_typeRef segments some shaped left).bind).bind
  cases declares with
  | field name =>
      refine (takes_modifiers_none (endsModifiers_identifier name _) ahead).misses
        fun modifiers _ left _ => misses_currentKind left ?_
      exact ((takes_identifier left).misses fun _ _ left _ => typed left).bind
  | binding name =>
      refine misses_current ?_
      rw [Cursor.current_kind_cons ahead]
      refine (takes_advance ahead (by simp)).misses fun _ _ left _ => ?_
      exact (takes_identifier left).misses fun _ _ left _ => typed left

/-- Where a part is refused in the middle, and what is left of it up to the semicolon is inline, the
part is skipped as a whole. -/
theorem skipped_of_misses {first here semicolon : Token} {before behind : List Token}
    (begins : part.recovery.isEnd first.kind = false) (follows : part.Follows [first])
    (inline : ∀ token ∈ here :: behind, token.kind.isInline = true)
    (ends : semicolon.kind = .punctuation .semicolon)
    (misses : ∀ depth (cursor : Cursor) (rest : List TokenKind),
      cursor.kinds = (first :: before).map Token.kind ++ here.kind :: rest →
      Misses (part.readerAt (depth + 1)) cursor (here.kind :: rest) expected) :
    Skipped part (first :: before ++ here :: (behind ++ [semicolon])) (missing expected here) := by
  refine ⟨by simp, follows_append follows (by simp) _, ?_, ?_⟩
  · intro cursor ending ahead
    rw [Cursor.current_eq ahead]
    exact begins
  · intro depth cursor ending ahead enough
    have whole : cursor.rest = first :: before ++ here :: (behind ++ semicolon :: ending) := by
      simpa using ahead
    obtain ⟨⟨last, left, reported⟩, read, kinds, quiet⟩ := misses depth cursor
      ((behind ++ semicolon :: ending).map Token.kind) (by rw [Cursor.kinds, whole]; simp)
    have tracks : Tracks [] [] True (part.Follows []) (part.readerAt (depth + 1))
        (part.readerAt (depth + 1)) cursor :=
      part.tracks_readerAt ⟨enough, Nat.add_le_add_right enough _⟩
    obtain rfl : left = here :: (behind ++ semicolon :: ending) := by
      have length := congrArg List.length kinds
      rw [Cursor.length_kinds, ← List.map_cons, List.length_map] at length
      have suffix : here :: (behind ++ semicolon :: ending) <:+ cursor.rest := by
        rw [whole]
        exact List.suffix_append ..
      exact (List.suffix_of_suffix_length_le (tracks.onward_failure read).behind suffix
        (Nat.le_of_eq length)).eq_of_length length
    have quiet : reported = cursor.reported := quiet
    have inner : ∀ token ∈ here :: behind, token.Inner := fun token inside =>
      inner_of_isInline (inline token inside)
    have stay : ∀ token ∈ (here :: behind).tail, part.recovery.isRestart token.kind = false :=
      fun token inside => isRestart_of_isInline (inline token (List.mem_of_mem_tail inside)) part
    have skipped : part.recovery.skip false 0 last (here :: behind ++ semicolon :: ending) =
        (some semicolon.span, ending) :=
      part.recovery.skip_segment ending ends inner (by simp) stay
    exact ⟨_, read, _, by rw [Cursor.resume, ← List.cons_append, skipped, quiet]⟩

/-- A field or a variable with a `>=` in the place of the `>` behind its type is refused at this token
and skipped. -/
theorem skipped_unclosed (declares : BeforeType part lead) (segments : path ≠ [])
    (some : arguments ≠ []) (shaped : ∀ argument ∈ arguments, argument.Shaped)
    {before behind : List Token} {here semicolon : Token}
    (front : before.map Token.kind = lead ++ unclosedKinds path arguments)
    (comparison : here.kind = .operator .gtEq)
    (inline : ∀ token ∈ behind, token.kind.isInline = true)
    (ends : semicolon.kind = .punctuation .semicolon) :
    Skipped part (before ++ here :: (behind ++ [semicolon])) (missing closingAngle here) := by
  have here_inline : here.kind.isInline = true := by rw [comparison]; rfl
  obtain ⟨kind, rest, rfl, more, word⟩ := declares.exists_head
  obtain ⟨first, later, rfl, rfl, _⟩ := List.map_eq_cons_iff.mp front
  have follows : part.Follows [first] := by
    cases part <;> simp [Part.Follows, NoElse, word]
  refine skipped_of_misses more follows (List.forall_mem_cons.mpr ⟨here_inline, inline⟩) ends
    fun depth cursor rest ahead => ?_
  rw [comparison] at ahead ⊢
  rw [front, List.append_assoc] at ahead
  exact misses_readerAt declares segments some shaped depth ahead

/-! ### What the field or the variable stands in -/

variable {run : List Token} {faults : List Diagnostic} {text : String}

/-- A class with nothing in front of it, as the only declaration. -/
theorem recovers_onlyClass {front : List Token} {closing : Token}
    (opens : front.map Token.kind =
      [.keyword .classWord, .identifier text, .punctuation .leftBrace])
    (inside : Recovers (.body .member) run faults)
    (closes : closing.kind = .punctuation .rightBrace) :
    Recovers (.body .declaration) (front ++ (run ++ [closing])) faults := by
  simp only [List.map_eq_cons_iff, List.map_eq_nil_iff] at opens
  obtain ⟨⟨_, span⟩, _, rfl, rfl, name, _, rfl, named, opening, _, rfl, brace, rfl⟩ := opens
  have type : Recovers (.one .declaration)
      ([] ++ ⟨.keyword .classWord, span⟩ :: name :: opening :: (run ++ [closing])) faults :=
    recovers_type ⟨none, [], [], none, rfl⟩ rfl (recovers_classTail named brace inside closes)
  simpa using recovers_part type (recovers_nothing .declaration)

/-- A function without parameters and with nothing in front of it, as the only declaration. -/
theorem recovers_onlyFunction {front : List Token} {closing : Token}
    (opens : front.map Token.kind = [.keyword .fnWord, .identifier text, .punctuation .leftParen,
      .punctuation .rightParen, .punctuation .leftBrace])
    (inside : Recovers (.body .statement) run faults)
    (closes : closing.kind = .punctuation .rightBrace) :
    Recovers (.body .declaration) (front ++ (run ++ [closing])) faults := by
  simp only [List.map_eq_cons_iff, List.map_eq_nil_iff] at opens
  obtain ⟨⟨_, span⟩, _, rfl, rfl, name, _, rfl, named, ⟨_, left⟩, _, rfl, rfl, ⟨_, right⟩, _, rfl, rfl,
    opening, _, rfl, brace, rfl⟩ := opens
  have tail : Recovers .methodTail (name ::
      ([⟨.punctuation .leftParen, left⟩, ⟨.punctuation .rightParen, right⟩] ++
        ([] ++ opening :: (run ++ [closing])))) faults := by
    obtain ⟨kind, place⟩ := opening
    subst brace
    exact recovers_methodTail named ⟨none, [], [], _, rfl⟩ ⟨none, [], [], _, rfl⟩
      (recovers_block rfl inside closes)
  have function : Recovers (.one .declaration) ([] ++ ⟨.keyword .fnWord, span⟩ :: name :: _) faults :=
    recovers_function ⟨none, [], [], none, rfl⟩ rfl tail
  simpa using recovers_part function (recovers_nothing .declaration)

end Reader

end Grammar

end DataClass
