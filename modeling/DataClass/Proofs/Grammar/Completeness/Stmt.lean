import DataClass.Grammar.Stmt
import DataClass.Proofs.Grammar.Completeness.Expr
import DataClass.Proofs.Grammar.Completeness.TypeRef
namespace DataClass

namespace TokenKind

/-- Whether a statement may begin with the token. -/
def opensStmt : TokenKind → Bool
  | .keyword word => (TokenKind.keyword word).opensExpr ||
      [.letWord, .returnWord, .ifWord, .whileWord].contains word
  | kind => kind.opensExpr

theorem opensStmt_of_opensExpr {kind : TokenKind} (opens : kind.opensExpr = true) :
    kind.opensStmt = true := by
  cases kind with
  | keyword word => simp [opensStmt, opens]
  | _ => exact opens

end TokenKind

namespace Stmt

variable {stmt : Stmt}

theorem Shaped.opens (shaped : stmt.Shaped) :
    ∃ first others, stmt.kinds = first :: others ∧ first.opensStmt = true := by
  cases shaped with
  | assign span place first second =>
      obtain ⟨head, others, same, opens⟩ := first.opensExpr
      exact ⟨head, _, by rw [kinds, same]; rfl, TokenKind.opensStmt_of_opensExpr opens⟩
  | evaluate span inside =>
      obtain ⟨head, others, same, opens⟩ := inside.opensExpr
      exact ⟨head, _, by rw [kinds, same]; rfl, TokenKind.opensStmt_of_opensExpr opens⟩
  | @choose span condition thenBody elseBody test yes no =>
      cases elseBody <;> exact ⟨_, _, by rw [kinds], rfl⟩
  | _ => exact ⟨_, _, by rw [kinds], rfl⟩

/-- The tokens of an `else` with its body, where there is one. -/
def otherwiseKinds : Option (List Stmt) → List TokenKind
  | none => []
  | some body => .keyword .elseWord :: elseKinds body

theorem kinds_choose (span : Span) (condition : Expr) (thenBody : List Stmt)
    (elseBody : Option (List Stmt)) :
    (choose span condition thenBody elseBody).kinds =
      .keyword .ifWord :: (condition.kinds ++
        (TokenKind.braced (bodyKinds thenBody) ++ otherwiseKinds elseBody)) := by
  cases elseBody <;> simp [kinds, otherwiseKinds]

theorem elseKinds_of_choice {only : Stmt} (choice : Layout.isChoice only = true) :
    elseKinds [only] = only.kinds := by
  rw [elseKinds, if_pos choice]

/-- Behind an `else` stands an `if` alone, or a body in braces. -/
theorem elseKinds_cases (body : List Stmt) :
    (∃ only, body = [only] ∧ Layout.isChoice only = true ∧ elseKinds body = only.kinds) ∨
      (∀ only, body = [only] → Layout.isChoice only = false) ∧
        elseKinds body = TokenKind.braced (bodyKinds body) := by
  match body with
  | [] => exact .inr ⟨by simp, by rw [elseKinds, bodyKinds]⟩
  | [only] =>
      cases choice : Layout.isChoice only with
      | true => exact .inl ⟨only, rfl, choice, elseKinds_of_choice choice⟩
      | false =>
          refine .inr ⟨by rintro _ ⟨⟩; exact choice, ?_⟩
          rw [elseKinds, choice, if_neg Bool.false_ne_true, bodyKinds, bodyKinds, List.append_nil]
  | first :: second :: rest => exact .inr ⟨by simp, by rw [elseKinds, bodyKinds, bodyKinds]⟩

theorem exists_kinds_of_choice {stmt : Stmt} (choice : Layout.isChoice stmt = true) :
    ∃ rest, stmt.kinds = .keyword .ifWord :: rest := by
  cases stmt with
  | choose span condition thenBody elseBody => exact ⟨_, kinds_choose ..⟩
  | _ => cases choice

end Stmt

namespace Grammar.Reader

/-! A statement that has a shape is read from the tokens it is written with, unless an `else` that
does not belong to it follows. -/

/-- What may follow a statement. -/
def EndsStmt (rest : List TokenKind) : Prop := rest.head?.getD .endOfFile ≠ .keyword .elseWord

/-- Reading all statements that are written with fewer tokens than a bound. -/
def ReadsStmts (reader : Reader Stmt) (bound : Nat) : Prop :=
  ∀ stmt : Stmt, stmt.Shaped → stmt.kinds.length < bound →
    Reads reader Stmt.kinds Stmt.erase EndsStmt stmt

variable {inner : Reader Stmt} {bound : Nat} {cursor : Cursor} {rest : List TokenKind}

theorem isEnd_of_opensStmt {kind : TokenKind} (opens : kind.opensStmt = true) :
    Recovery.statements.isEnd kind = false := by
  cases kind with
  | punctuation mark =>
      cases mark with
      | rightBrace => cases opens
      | _ => rfl
  | endOfFile => cases opens
  | _ => rfl

theorem takes_blockWith_of_reads {body : List Stmt} (shaped : ∀ stmt ∈ body, stmt.Shaped)
    (reads : ∀ stmt ∈ body, Reads inner Stmt.kinds Stmt.erase EndsStmt stmt)
    (ahead : cursor.kinds = TokenKind.braced (Stmt.bodyKinds body) ++ rest) :
    Takes (blockWith inner) cursor rest (·.map Stmt.erase = body.map Stmt.erase) := by
  rw [Stmt.bodyKinds_eq_flatMap] at ahead
  refine takes_braced _ _ rfl (fun stmt inside later => ?_) (fun _ => by simp [EndsStmt])
    (fun stmt inside => ?_) reads ahead
  · obtain ⟨first, others, same, opens⟩ := (shaped stmt inside).opens
    rw [EndsStmt, same, List.cons_append, List.head?_cons, Option.getD_some]
    rintro rfl
    cases opens
  · obtain ⟨first, others, same, opens⟩ := (shaped stmt inside).opens
    exact ⟨first, others, same, isEnd_of_opensStmt opens⟩

theorem takes_blockWith {body : List Stmt} (reads : ReadsStmts inner bound)
    (shaped : ∀ stmt ∈ body, stmt.Shaped)
    (small : (TokenKind.braced (Stmt.bodyKinds body)).length ≤ bound)
    (ahead : cursor.kinds = TokenKind.braced (Stmt.bodyKinds body) ++ rest) :
    Takes (blockWith inner) cursor rest (·.map Stmt.erase = body.map Stmt.erase) := by
  refine takes_blockWith_of_reads shaped (fun stmt inside => ?_) ahead
  rw [TokenKind.braced, List.length_cons, List.length_append, Stmt.bodyKinds_eq_flatMap] at small
  have within := TokenKind.length_le_flatMap Stmt.kinds inside
  exact reads stmt (shaped stmt inside) (by omega)

theorem takes_elseWith {elseBody : Option (List Stmt)} (reads : ReadsStmts inner bound)
    (shaped : ∀ body, elseBody = some body → ∀ stmt ∈ body, stmt.Shaped)
    (small : (Stmt.otherwiseKinds elseBody).length ≤ bound) (ends : EndsStmt rest)
    (ahead : cursor.kinds = Stmt.otherwiseKinds elseBody ++ rest) :
    Takes (elseWith inner) cursor rest
      (·.map (·.map Stmt.erase) = elseBody.map (·.map Stmt.erase)) := by
  cases elseBody with
  | none => exact takes_decline_bind ahead ends fun _ left => takes_pure left rfl
  | some body =>
      rw [Stmt.otherwiseKinds, List.cons_append] at ahead
      rw [Stmt.otherwiseKinds, List.length_cons] at small
      have shaped := shaped body rfl
      apply takes_accept_bind ahead (by simp)
      intro next left
      apply (takes_isNext left).bind
      intro nested next left here
      rcases Stmt.elseKinds_cases body with ⟨only, rfl, choice, same⟩ | ⟨_, same⟩
      · rw [same] at left small here
        obtain ⟨others, starts⟩ := Stmt.exists_kinds_of_choice choice
        have word : (only.kinds ++ rest).head?.getD .endOfFile = .keyword .ifWord := by
          rw [starts]
          rfl
        rw [word, BEq.rfl] at here
        subst here
        exact (reads only (shaped only List.mem_cons_self) small next rest ends left).map
          fun _ read => by simp [read]
      · rw [same] at left small here
        simp only [TokenKind.braced, List.cons_append, List.head?_cons, Option.getD_some] at here
        subst here
        exact (takes_blockWith reads shaped (Nat.le_of_succ_le small) left).map
          fun _ read => by simp [read]

theorem endsExpr_block (rest : List TokenKind) (body : List TokenKind) :
    EndsExpr precedences (TokenKind.braced body ++ rest) :=
  endsExpr_punctuation _ _ (by simp) (by simp)

theorem endsExpr_semicolon (rest : List TokenKind) :
    EndsExpr precedences (.punctuation .semicolon :: rest) :=
  endsExpr_punctuation _ _ (by simp) (by simp)

theorem endsExpr_eq (rest : List TokenKind) :
    EndsExpr precedences (.operator .eq :: rest) := by
  refine ⟨fun level _ => ?_, by simp, by simp⟩
  rfl

theorem takes_declareFrom (start : Nat) (span : Span) {name : String} {type : Option TypeRef}
    {value : Option Expr} (typed : ∀ found ∈ type, found.Shaped)
    (valued : ∀ found ∈ value, found.Shaped)
    (ahead : cursor.kinds = .identifier name ::
      (TypeRef.colonKinds type ++ (Expr.equalsKinds value ++ (.punctuation .semicolon :: rest)))) :
    Takes (declareFrom start) cursor rest (·.erase = (Stmt.declare span name type value).erase) := by
  have typeEnds : EndsType (Expr.equalsKinds value ++ (.punctuation .semicolon :: rest)) := by
    cases value <;> constructor <;> simp [Expr.equalsKinds]
  have noColon : (Expr.equalsKinds value ++ (.punctuation .semicolon :: rest)).head?.getD
      .endOfFile ≠ .punctuation .colon := by
    cases value <;> simp [Expr.equalsKinds]
  apply (takes_identifier ahead).bind
  intro _ next left named
  apply (takes_typeAfterColon typed typeEnds noColon left).bind
  intro _ next left typeRead
  apply (takes_expressionAfterEquals valued (endsExpr_semicolon rest) (by simp) left).bind
  intro _ next left valueRead
  refine (takes_expect _ left (by simp)).bind fun _ next left _ => takes_pure left ?_
  rw [Stmt.erase_declare, Stmt.erase_declare, named, typeRead, valueRead]

theorem takes_giveBackFrom (start : Nat) (span : Span) {value : Option Expr}
    (valued : ∀ found ∈ value, found.Shaped)
    (ahead : cursor.kinds = Expr.optionKinds value ++ (.punctuation .semicolon :: rest)) :
    Takes (giveBackFrom start) cursor rest (·.erase = (Stmt.giveBack span value).erase) := by
  cases value with
  | none => exact takes_accept_bind ahead (by simp) fun _ left => takes_pure left rfl
  | some value =>
      have shaped := valued value rfl
      refine takes_decline_bind ahead ?_ fun next left => ?_
      · obtain ⟨first, others, same, opens⟩ := shaped.opensExpr
        rw [Expr.optionKinds, same, List.cons_append, List.head?_cons, Option.getD_some]
        rintro rfl
        cases opens
      · apply (reads_expression shaped next _ (endsExpr_semicolon rest) left).bind
        intro _ next left read
        refine (takes_expect _ left (by simp)).bind fun _ next left _ => takes_pure left ?_
        rw [Stmt.erase_giveBack, Stmt.erase_giveBack, Option.map_some, Option.map_some, read]

theorem takes_chooseFrom (start : Nat) (span : Span) {condition : Expr} {thenBody : List Stmt}
    {elseBody : Option (List Stmt)} (reads : ReadsStmts inner bound) (test : condition.Shaped)
    (yes : ∀ stmt ∈ thenBody, stmt.Shaped)
    (no : ∀ body, elseBody = some body → ∀ stmt ∈ body, stmt.Shaped)
    (small : (TokenKind.braced (Stmt.bodyKinds thenBody) ++
      Stmt.otherwiseKinds elseBody).length ≤ bound) (ends : EndsStmt rest)
    (ahead : cursor.kinds = condition.kinds ++ (TokenKind.braced (Stmt.bodyKinds thenBody) ++
      (Stmt.otherwiseKinds elseBody ++ rest))) :
    Takes (chooseFrom inner start) cursor rest
      (·.erase = (Stmt.choose span condition thenBody elseBody).erase) := by
  rw [List.length_append] at small
  apply (reads_expression test cursor _ (endsExpr_block _ _) ahead).bind
  intro _ next left conditionRead
  apply (takes_blockWith reads yes (by omega) left).bind
  intro _ next left thenRead
  apply (takes_elseWith reads no (by omega) ends left).bind
  intro _ next left elseRead
  refine takes_pure left ?_
  rw [Stmt.erase_choose, Stmt.erase_choose, conditionRead, thenRead, elseRead]

theorem takes_repeatFrom (start : Nat) (span : Span) {condition : Expr} {body : List Stmt}
    (reads : ReadsStmts inner bound) (test : condition.Shaped)
    (shaped : ∀ stmt ∈ body, stmt.Shaped)
    (small : (TokenKind.braced (Stmt.bodyKinds body)).length ≤ bound)
    (ahead : cursor.kinds = condition.kinds ++ (TokenKind.braced (Stmt.bodyKinds body) ++ rest)) :
    Takes (repeatFrom inner start) cursor rest
      (·.erase = (Stmt.repeatWhile span condition body).erase) := by
  apply (reads_expression test cursor _ (endsExpr_block _ _) ahead).bind
  intro _ next left conditionRead
  apply (takes_blockWith reads shaped small left).bind
  intro _ next left bodyRead
  refine takes_pure left ?_
  rw [Stmt.erase_repeatWhile, Stmt.erase_repeatWhile, conditionRead, bodyRead]

theorem takes_evaluateFrom (start : Nat) (span : Span) {expr : Expr} (shaped : expr.Shaped)
    (ahead : cursor.kinds = expr.kinds ++ (.punctuation .semicolon :: rest)) :
    Takes (evaluateFrom start) cursor rest (·.erase = (Stmt.evaluate span expr).erase) := by
  apply (reads_expression shaped cursor _ (endsExpr_semicolon rest) ahead).bind
  intro _ next left read
  apply takes_decline_bind left (by simp)
  intro next left
  refine (takes_expect _ left (by simp)).bind fun _ next left _ => takes_pure left ?_
  rw [Stmt.erase_evaluate, Stmt.erase_evaluate, read]

theorem isAssignable_of_erase {expr other : Expr} (same : expr.erase = other.erase) :
    expr.isAssignable = other.isAssignable := by
  have kept (expr : Expr) : expr.erase.isAssignable = expr.isAssignable := by cases expr <;> rfl
  rw [← kept expr, ← kept other, same]

theorem takes_evaluateFrom_assign (start : Nat) (span : Span) {target value : Expr}
    (place : target.isAssignable = true) (first : target.Shaped) (second : value.Shaped)
    (ahead : cursor.kinds = target.kinds ++
      .operator .eq :: (value.kinds ++ (.punctuation .semicolon :: rest))) :
    Takes (evaluateFrom start) cursor rest (·.erase = (Stmt.assign span target value).erase) := by
  apply (reads_expression first cursor _ (endsExpr_eq _) ahead).bind
  intro _ next left read
  apply takes_accept_bind left (by simp)
  intro next left
  rw [if_pos ((isAssignable_of_erase read).trans place)]
  apply (reads_expression second next _ (endsExpr_semicolon rest) left).bind
  intro _ next left valueRead
  refine (takes_expect _ left (by simp)).bind fun _ next left _ => takes_pure left ?_
  rw [Stmt.erase_assign, Stmt.erase_assign, read, valueRead]

theorem statementWith_of_opensExpr (opens : cursor.current.kind.opensExpr = true) :
    statementWith inner cursor = evaluateFrom cursor.current.span.start cursor := by
  have token : current cursor = .value cursor.current cursor := rfl
  rw [statementWith, bind_value token]
  cases kind : cursor.current.kind with
  | keyword word =>
      rw [kind] at opens
      cases word <;> first | rfl | cases opens
  | _ => rfl

theorem readsStmts_statementAt (depth : Nat) : ReadsStmts (statementAt depth) depth := by
  induction depth with
  | zero => exact fun _ _ small => absurd small (Nat.not_lt_zero _)
  | succ depth ih =>
      intro stmt shaped small cursor rest ends ahead
      -- What an expression begins with decides that it is read as one.
      have asExpr {expr : Expr} (inside : expr.Shaped) {later : List TokenKind}
          (ahead : cursor.kinds = expr.kinds ++ later) {wanted : Stmt → Prop}
          (taken : Takes (evaluateFrom cursor.current.span.start) cursor rest wanted) :
          Takes (statementWith (statementAt depth)) cursor rest wanted := by
        obtain ⟨first, others, same, opens⟩ := inside.opensExpr
        rw [same, List.cons_append] at ahead
        rw [Takes, statementWith_of_opensExpr (by rw [Cursor.current_kind_cons ahead]; exact opens)]
        exact taken
      rw [statementAt]
      cases shaped with
      | declare span name typed valued =>
          simp only [Stmt.kinds, List.cons_append, List.append_assoc, List.nil_append] at ahead
          unfold statementWith
          apply takes_current_of_kind ahead
          intro first
          exact (takes_advance ahead (by simp)).bind fun _ next left _ =>
            takes_declareFrom _ span typed valued left
      | giveBack span valued =>
          simp only [Stmt.kinds, List.cons_append, List.append_assoc, List.nil_append] at ahead
          unfold statementWith
          apply takes_current_of_kind ahead
          intro first
          exact (takes_advance ahead (by simp)).bind fun _ next left _ =>
            takes_giveBackFrom _ span valued left
      | choose span test yes no =>
          rw [Stmt.kinds_choose] at small ahead
          simp only [List.cons_append, List.append_assoc] at ahead
          rw [List.length_cons, List.length_append] at small
          unfold statementWith
          apply takes_current_of_kind ahead
          intro first
          exact (takes_advance ahead (by simp)).bind fun _ next left _ =>
            takes_chooseFrom _ span ih test yes no (by omega) ends left
      | repeatWhile span test inside =>
          rw [Stmt.kinds] at small ahead
          rw [List.cons_append, List.append_assoc] at ahead
          rw [List.length_cons, List.length_append] at small
          unfold statementWith
          apply takes_current_of_kind ahead
          intro first
          exact (takes_advance ahead (by simp)).bind fun _ next left _ =>
            takes_repeatFrom _ span ih test inside (by omega) left
      | assign span place first second =>
          simp only [Stmt.kinds, List.cons_append, List.append_assoc, List.nil_append] at ahead
          exact asExpr first ahead (takes_evaluateFrom_assign _ span place first second ahead)
      | evaluate span inside =>
          simp only [Stmt.kinds, List.cons_append, List.append_assoc, List.nil_append] at ahead
          exact asExpr inside ahead (takes_evaluateFrom _ span inside ahead)

theorem takes_block {body : List Stmt} (shaped : ∀ stmt ∈ body, stmt.Shaped)
    (ahead : cursor.kinds = TokenKind.braced (Stmt.bodyKinds body) ++ rest) :
    Takes block cursor rest (·.map Stmt.erase = body.map Stmt.erase) := by
  refine takes_blockWith_of_reads shaped (fun stmt inside cursor rest ends ahead => ?_) ahead
  have small : stmt.kinds.length < cursor.rest.length + 1 := by
    rw [← cursor.length_kinds, ahead, List.length_append]
    omega
  rw [statement]
  exact takes_remaining
    (readsStmts_statementAt _ stmt (shaped stmt inside) small cursor rest ends ahead)

end Grammar.Reader

end DataClass
