import DataClass.Grammar.Stmt
import DataClass.Proofs.Grammar.Completeness.Stmt
import DataClass.Proofs.Grammar.Keeping
import DataClass.Proofs.Grammar.Soundness.Expr
import DataClass.Proofs.Grammar.Soundness.TypeRef
namespace DataClass.Grammar.Reader

open TokenKind (Keeps)

/-! A statement that was read has a shape, and it is written with the tokens that were taken, but for
braces around an `if` behind an `else`. -/

def SoundStmt (reader : Reader Stmt) : Prop :=
  ∀ cursor, Gathers reader cursor fun stmt taken =>
    Nearly Stmt.Shaped Stmt.kinds stmt taken ∧
      (cursor.current.kind = .keyword .ifWord → Layout.isChoice stmt = true)

variable {inner : Reader Stmt} {cursor : Cursor}

theorem gathers_blockWith (sound : SoundStmt inner) :
    Gathers (blockWith inner) cursor
      (Enclosed (fun body => ∀ stmt ∈ body, stmt.Shaped) Stmt.bodyKinds) := by
  refine (gathers_braced .statements _ _ fun cursor =>
    (sound cursor).weaken fun _ _ read => read.1).weaken ?_
  intro body taken read
  obtain ⟨inside, same, good, kept⟩ := read
  exact ⟨inside, same, good, by rw [Stmt.bodyKinds_eq_flatMap]; exact kept⟩

theorem consumes_declareFrom (start : Nat) :
    Consumes (declareFrom start) cursor fun stmt taken =>
      (stmt.Shaped ∧ Layout.isChoice stmt = false) ∧ stmt.kinds = .keyword .letWord :: taken := by
  apply consumes_identifier.bind
  intro name _ _ named
  apply consumes_typeAfterColon.bind
  intro type _ _ typed
  apply consumes_expressionAfterEquals.bind
  intro value _ _ valued
  apply (consumes_expect _ (by simp)).bind
  intro _ _ _ last
  refine consumes_spanFrom start fun span => consumes_pure ⟨⟨?_, rfl⟩, ?_⟩
  · exact .declare span name typed.1 valued.1
  · rw [named, typed.2, valued.2, last, Stmt.kinds]
    simp

theorem consumes_giveBackFrom (start : Nat) :
    Consumes (giveBackFrom start) cursor fun stmt taken =>
      (stmt.Shaped ∧ Layout.isChoice stmt = false) ∧
        stmt.kinds = .keyword .returnWord :: taken := by
  refine consumes_accept_bind (by simp) (fun _ => ?_) ?_
  · refine consumes_spanFrom start fun span => consumes_pure ⟨⟨.giveBack span (by simp), rfl⟩, ?_⟩
    rw [Stmt.kinds]
    rfl
  · apply (soundExpr_expression cursor).bind
    intro value _ _ valued
    apply (consumes_expect _ (by simp)).bind
    intro _ _ _ last
    refine consumes_spanFrom start fun span => consumes_pure ⟨⟨?_, rfl⟩, ?_⟩
    · exact .giveBack span (by simpa using valued.1)
    · rw [valued.2, last, Stmt.kinds]
      simp [Expr.optionKinds]

theorem consumes_evaluateFrom (start : Nat) :
    Consumes (evaluateFrom start) cursor fun stmt taken =>
      (stmt.Shaped ∧ Layout.isChoice stmt = false) ∧ stmt.kinds = taken := by
  apply (soundExpr_expression cursor).bind
  intro expr next _ first
  refine consumes_accept_bind (by simp) (fun next => ?_) ?_
  · split
    · next place =>
        apply (soundExpr_expression next).bind
        intro value _ _ valued
        apply (consumes_expect _ (by simp)).bind
        intro _ _ _ last
        refine consumes_spanFrom start fun span => consumes_pure ⟨⟨?_, rfl⟩, ?_⟩
        · exact .assign span place first.1 valued.1
        · rw [first.2, valued.2, last, Stmt.kinds]
          simp
    · exact consumes_fail _
  · apply (consumes_expect _ (by simp)).bind
    intro _ _ _ last
    refine consumes_spanFrom start fun span => consumes_pure ⟨⟨?_, rfl⟩, ?_⟩
    · exact .evaluate span first.1
    · rw [first.2, last, Stmt.kinds]
      simp

/-- Behind an `else`, braces are left out around nothing but an `if`. -/
theorem keeps_otherwise {body : List Stmt} {inside : List TokenKind}
    (shaped : ∀ stmt ∈ body, stmt.Shaped) (kept : Keeps inside (Stmt.bodyKinds body)) :
    Keeps (.keyword .elseWord :: TokenKind.braced inside) (Stmt.otherwiseKinds (some body)) := by
  rw [Stmt.otherwiseKinds]
  rcases Stmt.elseKinds_cases body with ⟨only, rfl, choice, same⟩ | ⟨_, same⟩ <;> rw [same]
  · rw [Stmt.bodyKinds, Stmt.bodyKinds, List.append_nil] at kept
    exact .otherwise (shaped only List.mem_cons_self) choice kept
  · exact kept.braced.cons _

theorem gathers_elseWith (sound : SoundStmt inner) :
    Gathers (elseWith inner) cursor
      (Nearly (fun body => ∀ stmts, body = some stmts → ∀ stmt ∈ stmts, stmt.Shaped)
        Stmt.otherwiseKinds) := by
  refine gathers_accept_bind (by simp) (fun next => gathers_isNext ?_) fun _ =>
    gathers_pure ⟨by simp, .same []⟩
  split
  · next here =>
      refine (sound next).bind fun nested _ taken => gathers_pure fun read => ⟨?_, ?_⟩
      · rintro _ ⟨⟩ stmt inside
        obtain rfl := List.mem_singleton.mp inside
        exact read.1.1
      · rw [Stmt.otherwiseKinds, Stmt.elseKinds_of_choice (read.2 (eq_of_beq here)),
          List.append_nil]
        exact read.1.2.cons _
  · refine (gathers_blockWith sound).bind fun body _ taken => gathers_pure ?_
    rintro ⟨inside, rfl, good, kept⟩
    rw [List.append_nil]
    exact ⟨by rintro _ ⟨⟩; exact good, keeps_otherwise good kept⟩

theorem gathers_chooseFrom (sound : SoundStmt inner) (start : Nat) :
    Gathers (chooseFrom inner start) cursor fun stmt taken =>
      (stmt.Shaped ∧ Layout.isChoice stmt = true) ∧
        Keeps (.keyword .ifWord :: taken) stmt.kinds := by
  apply (soundExpr_expression cursor).gathers.bind
  intro condition _ tested
  apply (gathers_blockWith sound).bind
  intro thenBody _ accepted
  apply (gathers_elseWith sound).bind
  intro elseBody _ refused
  refine gathers_spanFrom start fun span => gathers_pure fun no yes test => ⟨⟨?_, rfl⟩, ?_⟩
  · obtain ⟨inside, _, good, _⟩ := yes
    exact .choose span test.1 good no.1
  · obtain ⟨inside, rfl, _, kept⟩ := yes
    rw [Stmt.kinds_choose, test.2, List.append_nil]
    exact ((Keeps.same _).append (kept.braced.append no.2)).cons _

theorem gathers_repeatFrom (sound : SoundStmt inner) (start : Nat) :
    Gathers (repeatFrom inner start) cursor fun stmt taken =>
      (stmt.Shaped ∧ Layout.isChoice stmt = false) ∧
        Keeps (.keyword .whileWord :: taken) stmt.kinds := by
  apply (soundExpr_expression cursor).gathers.bind
  intro condition _ tested
  apply (gathers_blockWith sound).bind
  intro body _ repeated
  refine gathers_spanFrom start fun span => gathers_pure ?_
  intro read test
  obtain ⟨inside, rfl, good, kept⟩ := read
  refine ⟨⟨.repeatWhile span test.1 good, rfl⟩, ?_⟩
  rw [Stmt.kinds, test.2, List.append_nil]
  exact ((Keeps.same _).append kept.braced).cons _

theorem soundStmt_statementAt (depth : Nat) : SoundStmt (statementAt depth) := by
  induction depth with
  | zero => exact fun _ => (consumes_failExpected _).gathers
  | succ depth ih =>
      intro cursor
      refine gathers_current ?_
      split
      · next word =>
          apply (consumes_advance word (by simp)).bind_gathers
          intro _ _ _ first
          refine (consumes_declareFrom _).gathers.weaken fun stmt taken read => ⟨⟨read.1.1, ?_⟩, ?_⟩
          · rw [read.2, first]
            exact .same _
          · simp [word]
      · next word =>
          apply (consumes_advance word (by simp)).bind_gathers
          intro _ _ _ first
          refine (consumes_giveBackFrom _).gathers.weaken fun stmt taken read => ⟨⟨read.1.1, ?_⟩, ?_⟩
          · rw [read.2, first]
            exact .same _
          · simp [word]
      · next word =>
          apply (consumes_advance word (by simp)).bind_gathers
          intro _ _ _ first
          refine (gathers_chooseFrom ih _).weaken fun stmt taken read =>
            ⟨⟨read.1.1, ?_⟩, fun _ => read.1.2⟩
          rw [first]
          exact read.2
      · next word =>
          apply (consumes_advance word (by simp)).bind_gathers
          intro _ _ _ first
          refine (gathers_repeatFrom ih _).weaken fun stmt taken read => ⟨⟨read.1.1, ?_⟩, ?_⟩
          · rw [first]
            exact read.2
          · simp [word]
      · next other _ =>
          refine (consumes_evaluateFrom _).gathers.weaken fun stmt taken read =>
            ⟨⟨read.1.1, ?_⟩, fun here => absurd here other⟩
          rw [read.2]
          exact .same _

theorem gathers_block :
    Gathers block cursor (Enclosed (fun body => ∀ stmt ∈ body, stmt.Shaped) Stmt.bodyKinds) := by
  apply gathers_blockWith
  intro cursor
  rw [statement]
  exact gathers_remaining (soundStmt_statementAt _ _)

end DataClass.Grammar.Reader
