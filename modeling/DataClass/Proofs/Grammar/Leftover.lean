import DataClass.Proofs.Grammar.Flawed
import Mathlib.Logic.Relation
namespace DataClass

namespace Grammar

/-! A group in braces where a value belongs. The group is passed over as a whole, but the semicolon
behind it is left over, and no part of a body begins with one. -/

/-- Tokens in which every brace has its other one, without an end of the file. -/
inductive Matched : List Token → Prop where
  | nil : Matched []
  | token {token : Token} {rest : List Token}
      (plain : token.kind ∉ [.punctuation .leftBrace, .punctuation .rightBrace, .endOfFile])
      (later : Matched rest) : Matched (token :: rest)
  | group {opening closing : Token} {inner rest : List Token}
      (opens : opening.kind = .punctuation .leftBrace) (inside : Matched inner)
      (closes : closing.kind = .punctuation .rightBrace) (later : Matched rest) :
      Matched (opening :: (inner ++ closing :: rest))

/-- A whole group in braces. -/
structure IsGroup (group : List Token) (opening : Token) : Prop where
  opens : opening.kind = .punctuation .leftBrace
  whole : ∃ inner closing, group = opening :: (inner ++ [closing]) ∧ Matched inner ∧
    closing.kind = .punctuation .rightBrace

namespace Recovery

variable (recovery : Recovery) {inner : List Token}

/-- Inside of braces nothing stops the skipping, but for the brace that closes them. -/
theorem skip_matched (matched : Matched inner) (moved : Bool) (depth : Nat) (previous : Option Span)
    (rest : List Token) : ∃ moved' place,
      recovery.skip moved (depth + 1) previous (inner ++ rest) =
        recovery.skip moved' (depth + 1) place rest := by
  induction matched generalizing moved depth previous rest with
  | nil => exact ⟨moved, previous, rfl⟩
  | @token token later plain _ ih =>
      obtain ⟨moved', place, same⟩ := ih true depth (some token.span) rest
      refine ⟨moved', place, ?_⟩
      rw [← same]
      obtain ⟨kind, span⟩ := token
      cases kind with
      | punctuation mark => cases mark <;> simp_all [skip]
      | _ => simp_all [skip]
  | @group opening closing inner later opens _ closes _ inside behind =>
      obtain ⟨_, _, within⟩ := inside true (depth + 1) (some opening.span) (closing :: (later ++ rest))
      obtain ⟨moved', place, same⟩ := behind true depth (some closing.span) rest
      refine ⟨moved', place, ?_⟩
      rw [← same]
      simp [skip, opens, closes, within]

/-- A group is skipped as a whole, and nothing behind it. -/
theorem skip_group {group : List Token} {opening : Token} (isGroup : IsGroup group opening)
    (previous : Option Span) (rest : List Token) :
    ∃ place, recovery.skip false 0 previous (group ++ rest) = (place, rest) := by
  obtain ⟨inner, closing, rfl, matched, closes⟩ := isGroup.whole
  obtain ⟨_, _, within⟩ :=
    recovery.skip_matched matched true 0 (some opening.span) (closing :: rest)
  exact ⟨some closing.span, by simp [skip, isEnd, isGroup.opens, closes, within]⟩

end Recovery

/-- What is reported where a token stands in the place of something else. -/
def missing (expected : String) (token : Token) : Diagnostic :=
  .syntaxFault ("Expected " ++ expected ++ ", found " ++ token.kind.describe) token.span

namespace Part

/-- How the beginning of a part is called. -/
def expected : Part → String
  | .member => "class member"
  | .statement => "expression"
  | .declaration => "declaration ('class', 'fn' or 'import')"

end Part

namespace Reader

variable {α β : Type} {cursor : Cursor} {token : Token} {rest left middle : List Token}
  {fault : Diagnostic} {got : β → Prop}

/-! ### Readers that fail -/

/-- The reader fails in front of some tokens and reports nothing else. -/
def Fails (reader : Reader α) (cursor : Cursor) (left : List Token) (fault : Diagnostic) : Prop :=
  ∃ last, reader cursor = .failure fault ⟨last, left, cursor.reported⟩

theorem Fails.bind {reader : Reader β} {following : β → Reader α}
    (first : Fails reader cursor left fault) : Fails (reader >>= following) cursor left fault := by
  obtain ⟨last, read⟩ := first
  exact ⟨last, bind_failure read⟩

theorem Passes.fails {reader : Reader β} {following : β → Reader α}
    (first : Passes reader cursor middle [] got)
    (goes : ∀ result next, next.rest = middle → got result →
      Fails (following result) next left fault) :
    Fails (reader >>= following) cursor left fault := by
  obtain ⟨result, last, read, good⟩ := first
  obtain ⟨stop, further⟩ := goes result ⟨last, middle, cursor.reported⟩ rfl good
  exact ⟨stop, (bind_value read).trans further⟩

theorem fails_failExpected (expected : String) (ahead : cursor.rest = token :: rest) :
    Fails (failExpected expected : Reader α) cursor (token :: rest) (missing expected token) := by
  refine ⟨cursor.previous, ?_⟩
  rw [failExpected, Cursor.current_eq ahead, ← ahead]
  rfl

theorem fails_currentKind {following : TokenKind → Reader α} {kind : TokenKind}
    (ahead : cursor.rest = token :: middle) (same : token.kind = kind)
    (goes : Fails (following kind) cursor left fault) :
    Fails (currentKind >>= following) cursor left fault := by
  rw [← same, ← Cursor.current_eq ahead] at goes
  exact goes

theorem fails_current {following : Token → Reader α} (ahead : cursor.rest = token :: middle)
    (goes : Fails (following token) cursor left fault) :
    Fails (current >>= following) cursor left fault := by
  rw [← Cursor.current_eq ahead] at goes
  exact goes

theorem fails_accept {kind : TokenKind} {found other : Reader α}
    (ahead : cursor.rest = token :: middle) (same : token.kind = kind) (more : kind ≠ .endOfFile)
    (goes : ∀ next : Cursor, next.rest = middle → Fails found next left fault) :
    Fails (accept kind >>= fun here => if here = true then found else other) cursor left fault := by
  subst same
  have accepts : Passes (accept token.kind) cursor middle [] (· = true) :=
    ⟨true, some token.span, by simp [accept, Cursor.current_eq ahead, Cursor.step_eq ahead more], rfl⟩
  refine accepts.fails fun here next behind found => ?_
  subst found
  exact goes next behind

theorem fails_binaryWith {operand : Reader Expr} (fails : Fails operand cursor left fault)
    (levels : List Nat) : Fails (binaryWith operand levels) cursor left fault := by
  induction levels with
  | nil => exact fails
  | cons precedence tighter ih => exact ih.bind

theorem fails_remaining {following : Nat → Reader α}
    (goes : Fails (following cursor.rest.length) cursor left fault) :
    Fails (remaining >>= following) cursor left fault := goes

/-- No operand begins with a mark other than an opening parenthesis. -/
theorem fails_operandWith {mark : Punctuation} (here : token.kind = .punctuation mark)
    (other : mark ≠ .leftParen) (ahead : cursor.rest = token :: rest) (inner : Reader Expr) :
    Fails (operandWith inner) cursor (token :: rest) (missing "expression" token) := by
  have none : operand? token = none := by simp [operand?, here]
  unfold operandWith
  refine fails_current ahead ?_
  rw [if_neg (by simpa [here] using other), none]
  exact fails_failExpected _ ahead

theorem fails_signed {mark : Punctuation} (here : token.kind = .punctuation mark)
    (ahead : cursor.rest = token :: rest) {operand : Reader Expr}
    (fails : Fails operand cursor left fault) (turns : Nat) :
    Fails (signed operand turns) cursor left fault := by
  cases turns with
  | zero => exact fails
  | succ turns =>
      unfold signed
      refine fails_current ahead ?_
      rw [here]
      exact fails

/-- No expression begins with a mark other than an opening parenthesis. -/
theorem fails_expression {mark : Punctuation} (here : token.kind = .punctuation mark)
    (other : mark ≠ .leftParen) (ahead : cursor.rest = token :: rest) :
    Fails expression cursor (token :: rest) (missing "expression" token) := by
  unfold expression
  refine fails_remaining ?_
  rw [expressionAt, expressionWith]
  refine fails_binaryWith ?_ precedences
  unfold signedWith
  exact fails_remaining (fails_signed here ahead (fails_operandWith here other ahead _).bind _)

/-! ### Where a value is declared -/

/-- Runs of tokens from the beginning of a part up to the equals sign in front of a value: of a field of
a class, or of a variable. -/
inductive BeforeValue : Part → List Token → Prop where
  | field {name sign : Token} {front written : List Token} {text : String} {found : Modifiers}
      {type : Option TypeRef} (before : Accepts modifiers front [name] found)
      (named : name.kind = .identifier text) (typed : Accepts typeAfterColon written [sign] type)
      (equals : sign.kind = .operator .eq) :
      BeforeValue .member (front ++ name :: (written ++ [sign]))
  | binding {word name sign : Token} {written : List Token} {text : String} {type : Option TypeRef}
      (keyword : word.kind = .keyword .letWord) (named : name.kind = .identifier text)
      (typed : Accepts typeAfterColon written [sign] type) (equals : sign.kind = .operator .eq) :
      BeforeValue .statement (word :: name :: (written ++ [sign]))

variable {part : Part} {front written group ending : List Token} {opening sign : Token}

theorem fails_value {type : Option TypeRef} {following : Option TypeRef → Option Expr → Reader α}
    (typed : Accepts typeAfterColon written [sign] type) (equals : sign.kind = .operator .eq)
    (opens : opening.kind = .punctuation .leftBrace)
    (ahead : cursor.rest = written ++ (sign :: opening :: rest)) :
    Fails (typeAfterColon >>= fun type => expressionAfterEquals >>= following type) cursor
      (opening :: rest) (missing "expression" opening) := by
  refine (passes_accepted typed (fun _ _ _ => tracks_typeAfterColon)
    (fun _ _ => unplaced_typeAfterColon) (by simp) ahead).fails fun _ next left _ => Fails.bind ?_
  exact fails_accept left equals (by simp) fun next left => (fails_expression opens (by simp) left).bind

theorem fails_beforeValue (declares : BeforeValue part front)
    (opens : opening.kind = .punctuation .leftBrace) (depth : Nat)
    (ahead : cursor.rest = front ++ opening :: rest) :
    Fails (part.readerAt (depth + 1)) cursor (opening :: rest) (missing "expression" opening) := by
  cases declares with
  | field before named typed equals =>
      simp only [List.append_assoc, List.cons_append, List.nil_append] at ahead
      refine (passes_accepted before (fun _ _ _ => tracks_modifiers) (fun _ _ => unplaced_modifiers)
        (by simp) ahead).fails fun found next left _ => fails_currentKind left named ?_
      refine Fails.bind ((passes_identifier left named).fails fun _ next left _ => ?_)
      exact fails_value typed equals opens left
  | binding keyword named typed equals =>
      simp only [List.append_assoc, List.cons_append, List.nil_append] at ahead
      refine fails_current ahead ?_
      rw [keyword]
      refine (passes_advance ahead (by simp [keyword])).fails fun _ next left _ => ?_
      refine (passes_identifier left named).fails fun _ next left _ => ?_
      exact fails_value typed equals opens left

/-- What stands in front of a field is no end of a class. -/
theorem isEnd_of_modifiers {name : Token} {text : String} {found : Modifiers}
    (before : Accepts modifiers front [name] found) (named : name.kind = .identifier text)
    (ahead : cursor.rest = front ++ name :: rest) :
    Recovery.members.isEnd cursor.current.kind = false := by
  have passes : Passes modifiers cursor ([name] ++ rest) [] (· = found) := passes_accepted before
    (fun _ _ _ => tracks_modifiers) (fun _ _ => unplaced_modifiers) (by simp) ahead
  obtain ⟨_, last, read, _⟩ := passes
  refine Bool.eq_false_iff.mpr fun ends => ?_
  have stays : cursor.rest = [name] ++ rest := by
    have closes : cursor.current.kind = .endOfFile ∨ cursor.current.kind = .punctuation .rightBrace := by
      cases kind : cursor.current.kind with
      | endOfFile => exact .inl rfl
      | punctuation mark => cases mark <;> simp_all [Recovery.isEnd]
      | _ => simp_all [Recovery.isEnd]
    have same : modifiers cursor = _ := modifiers_of_other (by rcases closes with h | h <;> simp [h])
      (by rcases closes with h | h <;> simp [h]) (by rcases closes with h | h <;> simp [h])
    rw [same] at read
    exact congrArg Cursor.rest (Outcome.value.inj read).2
  rw [Cursor.current_eq stays, named] at ends
  cases ends

/-- A group in the place of a value is refused at its opening brace and skipped. -/
theorem skipped_group (declares : BeforeValue part front) (isGroup : IsGroup group opening) :
    Skipped part (front ++ group) (missing "expression" opening) := by
  obtain ⟨inner, closing, same, _, _⟩ := isGroup.whole
  refine ⟨by simp [same], ?_, ?_, ?_⟩
  · cases declares with
    | field => trivial
    | binding keyword => simp [Part.Follows, NoElse, keyword]
  · intro cursor ending ahead
    cases declares with
    | field before named =>
        simp only [List.append_assoc, List.cons_append] at ahead
        exact isEnd_of_modifiers before named ahead
    | binding keyword =>
        rw [Cursor.current_eq (by simpa using ahead), keyword]
        rfl
  · intro depth cursor ending ahead _
    have front : cursor.rest = front ++ opening :: (inner ++ closing :: ending) := by
      simpa [same] using ahead
    obtain ⟨last, read⟩ := fails_beforeValue declares isGroup.opens depth front
    obtain ⟨place, skipped⟩ := part.recovery.skip_group isGroup last ending
    refine ⟨_, read, place, ?_⟩
    have back : opening :: (inner ++ closing :: ending) = group ++ ending := by simp [same]
    rw [Cursor.resume, back, skipped]

/-- With an expression in the place of the value the part can be read. -/
theorem accepts_beforeValue {value : List Token} {semicolon : Token} {result : Expr}
    (declares : BeforeValue part front) (given : Accepts expression value [semicolon] result)
    (ends : semicolon.kind = .punctuation .semicolon) :
    ∃ found : part.Value, Accepts part.reader (front ++ (value ++ [semicolon])) [] found := by
  have initial {cursor : Cursor} {sign : Token} (equals : sign.kind = .operator .eq)
      (ahead : cursor.rest = sign :: (value ++ [semicolon])) :
      Passes expressionAfterEquals cursor [semicolon] [] fun _ => True := by
    refine passes_accept ahead equals (by simp) fun next left => ?_
    exact (passes_accepted given (fun _ _ _ => tracks_expression) (fun _ _ => unplaced_expression)
      (by simp) left).finish fun _ _ left _ => passes_pure left trivial
  have done (passes : ∀ depth, Passes (part.readerAt (depth + 1))
        ⟨none, front ++ (value ++ [semicolon]), []⟩ [] [] fun _ => True) :
      ∃ found : part.Value, Accepts part.reader (front ++ (value ++ [semicolon])) [] found := by
    obtain ⟨found, last, read, _⟩ := passes (front ++ (value ++ [semicolon])).length
    refine ⟨found, none, [], [], last, ?_⟩
    rw [List.append_nil, List.append_nil, part.reader_eq]
    exact read
  cases declares with
  | @field name sign front written text found type before named typed equals =>
      refine done fun depth => ?_
      have ahead : front ++ name :: (written ++ [sign]) ++ (value ++ [semicolon]) =
          front ++ ([name] ++ (written ++ sign :: (value ++ [semicolon]))) := by simp
      refine (passes_accepted before (fun _ _ _ => tracks_modifiers) (fun _ _ => unplaced_modifiers)
        (by simp) ahead).quietly fun found next left _ => passes_currentKind left named ?_
      refine passes_placed _ ((passes_identifier left named).quietly fun _ next left _ => ?_)
      refine (passes_accepted typed (fun _ _ _ => tracks_typeAfterColon)
        (fun _ _ => unplaced_typeAfterColon) (by simp) left).quietly fun _ next left _ => ?_
      refine (initial equals left).quietly fun _ next left _ => ?_
      exact (passes_expect _ left ends (by simp)).quietly fun _ _ left _ => passes_pure left trivial
  | @binding word name sign written text type keyword named typed equals =>
      refine done fun depth => ?_
      have ahead : (⟨none, word :: name :: (written ++ [sign]) ++ (value ++ [semicolon]), []⟩ :
          Cursor).rest = word :: name :: (written ++ sign :: (value ++ [semicolon])) := by simp
      refine passes_current ahead ?_
      rw [keyword]
      refine (passes_advance ahead (by simp [keyword])).quietly fun _ next left _ => ?_
      refine (passes_identifier left named).quietly fun _ next left _ => ?_
      refine (passes_accepted typed (fun _ _ _ => tracks_typeAfterColon)
        (fun _ _ => unplaced_typeAfterColon) (by simp) left).quietly fun _ next left _ => ?_
      refine (initial equals left).quietly fun _ next left _ => ?_
      exact (passes_expect _ left ends (by simp)).quietly fun _ _ left _ =>
        passes_spanFrom _ fun _ => passes_pure left trivial

/-- The semicolon that is left over is refused as a part of its own. -/
theorem refuses_semicolon (part : Part) {semicolon : Token}
    (ends : semicolon.kind = .punctuation .semicolon) :
    Refuses part [semicolon] (missing part.expected semicolon) := by
  obtain ⟨kind, span⟩ := semicolon
  subst ends
  refine ⟨⟨[], _, rfl, rfl, by simp⟩, by cases part <;> simp [Part.Follows, NoElse], ?_⟩
  exact ⟨[], _, [], none, [], [], _, rfl, by cases part <;> rfl, rfl, by simp⟩

theorem recovers_behind {before : List Token} {faults later : List Diagnostic}
    (first : Flawed (.body part) before faults) (others : Recovers (.body part) rest later) :
    Recovers (.body part) (before ++ rest) (faults ++ later) := by
  generalize piece : Piece.body part = body at first
  induction first with
  | nothing => exact Piece.body.inj piece ▸ others
  | part first _ _ ih =>
      cases piece
      rw [List.append_assoc, List.append_assoc]
      exact recovers_part first.recovers (ih rfl)
  | refused first _ ih =>
      cases piece
      rw [List.append_assoc]
      exact recovers_refused first (ih rfl)
  | _ => cases piece

end Reader

/-! ### Where the body stands -/

open Reader in
/-- A run of tokens stands inside of a bigger one that is read as a piece, and everything around it can
be read. -/
inductive Encloses : Piece × List Token → Piece × List Token → Prop where
  | part {part : Part} {before run after : List Token} (front : Flawed (.body part) before [])
      (behind : Flawed (.body part) after []) :
      Encloses (.one part, run) (.body part, before ++ (run ++ after))
  | block {opening closing : Token} {run : List Token}
      (opens : opening.kind = .punctuation .leftBrace)
      (closes : closing.kind = .punctuation .rightBrace) :
      Encloses (.body .statement, run) (.block, opening :: (run ++ [closing]))
  | classTail {name opening closing : Token} {run : List Token} {text : String}
      (named : name.kind = .identifier text) (opens : opening.kind = .punctuation .leftBrace)
      (closes : closing.kind = .punctuation .rightBrace) :
      Encloses (.body .member, run) (.classTail, name :: opening :: (run ++ [closing]))
  | methodTail {name opening : Token} {given written run : List Token} {text : String}
      {params : List Param} {type : Option TypeRef} (named : name.kind = .identifier text)
      (taken : Accepts Reader.params given [] params)
      (typed : Accepts typeAfterColon written [opening] type) :
      Encloses (.block, opening :: run) (.methodTail, name :: (given ++ (written ++ opening :: run)))
  | nested {word : Token} {front tail : List Token} {found : Modifiers}
      (before : Accepts modifiers front [word] found) (keyword : word.kind = .keyword .classWord) :
      Encloses (.classTail, tail) (.one .member, front ++ word :: tail)
  | method {word : Token} {front tail : List Token} {found : Modifiers}
      (before : Accepts modifiers front [word] found) (keyword : word.kind = .keyword .fnWord) :
      Encloses (.methodTail, tail) (.one .member, front ++ word :: tail)
  | constructor {word : Token} {front given run : List Token} {found : Modifiers}
      {params : List Param} (before : Accepts modifiers front [word] found)
      (keyword : word.kind = .keyword .newWord) (taken : Accepts Reader.params given [] params) :
      Encloses (.block, run) (.one .member, front ++ word :: (given ++ run))
  | initializer {word : Token} {front run : List Token} {found : Modifiers}
      (before : Accepts modifiers front [word] found) (untagged : found.tags = [])
      (keyword : word.kind = .keyword .initWord) :
      Encloses (.block, run) (.one .member, front ++ word :: run)
  | type {word : Token} {front tail : List Token} {found : Modifiers}
      (before : Accepts modifiers front [word] found) (keyword : word.kind = .keyword .classWord) :
      Encloses (.classTail, tail) (.one .declaration, front ++ word :: tail)
  | function {word : Token} {front tail : List Token} {found : Modifiers}
      (before : Accepts modifiers front [word] found) (keyword : word.kind = .keyword .fnWord) :
      Encloses (.methodTail, tail) (.one .declaration, front ++ word :: tail)
  | thenBody {word opening : Token} {test run rest : List Token} {condition : Expr}
      (keyword : word.kind = .keyword .ifWord) (tested : Accepts expression test [opening] condition)
      (others : Flawed .otherwise rest []) :
      Encloses (.block, opening :: run) (.one .statement, word :: (test ++ (opening :: run ++ rest)))
  | elseBody {word opening : Token} {test run rest : List Token} {condition : Expr}
      (keyword : word.kind = .keyword .ifWord) (tested : Accepts expression test [opening] condition)
      (first : Flawed .block (opening :: run) []) :
      Encloses (.otherwise, rest) (.one .statement, word :: (test ++ (opening :: run ++ rest)))
  | repeatWhile {word opening : Token} {test run : List Token} {condition : Expr}
      (keyword : word.kind = .keyword .whileWord)
      (tested : Accepts expression test [opening] condition) :
      Encloses (.block, opening :: run) (.one .statement, word :: (test ++ opening :: run))
  | elseBlock {word opening : Token} {run : List Token} (keyword : word.kind = .keyword .elseWord)
      (opens : opening.kind = .punctuation .leftBrace) :
      Encloses (.block, opening :: run) (.otherwise, word :: opening :: run)
  | elseIf {word again : Token} {run : List Token} (keyword : word.kind = .keyword .elseWord)
      (chained : again.kind = .keyword .ifWord) :
      Encloses (.one .statement, again :: run) (.otherwise, word :: again :: run)

namespace Encloses

open Reader

variable {inner outer : Piece × List Token} {faults : List Diagnostic}

/-- What is reported inside is reported outside, and nothing else. -/
theorem recovers (encloses : Encloses inner outer) (inside : Recovers inner.1 inner.2 faults) :
    Recovers outer.1 outer.2 faults := by
  cases encloses with
  | part front behind => simpa using recovers_behind front (recovers_part inside behind.recovers)
  | block opens closes => exact recovers_block opens inside closes
  | classTail named opens closes => exact recovers_classTail named opens inside closes
  | methodTail named taken typed => exact recovers_methodTail named taken typed inside
  | nested before keyword => exact recovers_nested before keyword inside
  | method before keyword => exact recovers_method before keyword inside
  | constructor before keyword taken => exact recovers_constructor before keyword taken inside
  | initializer before untagged keyword => exact recovers_initializer before untagged keyword inside
  | type before keyword => exact recovers_type before keyword inside
  | function before keyword => exact recovers_function before keyword inside
  | thenBody keyword tested others =>
      simpa using recovers_choose keyword tested inside others.recovers
  | elseBody keyword tested first => exact recovers_choose keyword tested first.recovers inside
  | repeatWhile keyword tested => exact recovers_repeatWhile keyword tested inside
  | elseBlock keyword opens => exact recovers_elseBlock keyword opens inside
  | elseIf keyword chained => exact recovers_elseIf keyword chained inside

/-- However deep a run stands inside of another one. -/
theorem recovers_deep (within : Relation.ReflTransGen Encloses inner outer)
    (inside : Recovers inner.1 inner.2 faults) : Recovers outer.1 outer.2 faults := by
  induction within with
  | refl => exact inside
  | tail _ encloses ih => exact encloses.recovers ih

end Encloses

end Grammar

namespace Program

open Grammar Grammar.Reader

/-- A value in braces gives two faults. In a body whose other parts can be read, wherever in a program it
stands and everything around it can be read, let the value of one field or variable be replaced by a
group in braces, with any tokens inside. Where an expression could be read instead, the first fault is
reported at the opening brace. Reading goes on behind the whole group, so the semicolon is left over, and
the second fault says that no part begins with it. Nothing else is reported. -/
theorem ofTokens_groupValue {part : Part} {before front group after run : List Token}
    {opening semicolon finish : Token} (well : Flawed (.body part) before [])
    (behind : Flawed (.body part) after []) (declares : BeforeValue part front)
    (isGroup : IsGroup group opening) (ends : semicolon.kind = .punctuation .semicolon)
    (within : Relation.ReflTransGen Encloses
      (.body part, before ++ (front ++ (group ++ semicolon :: after))) (.body .declaration, run))
    (last : finish.kind = .endOfFile) :
    (∀ value result, Accepts expression value [semicolon] result →
      Flawed (.one part) (front ++ (value ++ [semicolon])) []) ∧
    ofTokens (run ++ [finish]) =
      .error [missing "expression" opening, missing part.expected semicolon] := by
  constructor
  · intro value result given
    obtain ⟨found, accepted⟩ := accepts_beforeValue declares given ends
    exact .accepted accepted
  have inside : Recovers (.body part) (before ++ (front ++ (group ++ semicolon :: after)))
      [missing "expression" opening, missing part.expected semicolon] := by
    have whole : before ++ (front ++ (group ++ semicolon :: after)) =
        before ++ (front ++ group ++ ([semicolon] ++ after)) := by simp
    rw [whole]
    exact recovers_behind well (recovers_skipped (skipped_group declares isGroup)
      (recovers_refused (refuses_semicolon part ends) behind.recovers))
  exact (ofTokens_of_recovers (Encloses.recovers_deep within inside) last).2 (by simp)

/-- A class whose field gets a value in braces, and a function with a loop in which a variable does. -/
theorem ofTokens_groupValue_class :
    let token (kind : TokenKind) : Token := ⟨kind, .origin⟩
    let mark (mark : Punctuation) : Token := token (.punctuation mark)
    let name (text : String) : Token := token (.identifier text)
    let sign := token (.operator .eq)
    let group := [mark .leftBrace, mark .semicolon, mark .leftBrace, mark .rightBrace, mark .rightBrace]
    ofTokens ([token (.keyword .classWord), name "A", mark .leftBrace, name "x", sign] ++ group ++
        [mark .semicolon, mark .rightBrace, token .endOfFile]) =
      .error [missing "expression" (mark .leftBrace), missing "class member" (mark .semicolon)] ∧
    ofTokens ([token (.keyword .fnWord), name "f", mark .leftParen, mark .rightParen, mark .leftBrace,
        token (.keyword .whileWord), name "c", mark .leftBrace, token (.keyword .letWord), name "x",
        sign] ++ group ++ [mark .semicolon, mark .rightBrace, mark .rightBrace, token .endOfFile]) =
      .error [missing "expression" (mark .leftBrace), missing "expression" (mark .semicolon)] := by
  intro token mark name sign group
  have empty : Matched [mark .leftBrace, mark .rightBrace] := @Matched.group _ _ [] [] rfl .nil rfl .nil
  have matched : Matched [mark .semicolon, mark .leftBrace, mark .rightBrace] :=
    .token (by simp [mark, token]) empty
  have isGroup : IsGroup group (mark .leftBrace) := ⟨rfl, _, mark .rightBrace, rfl, matched, rfl⟩
  have untyped : Accepts typeAfterColon [] [sign] none := ⟨none, [], [], _, rfl⟩
  have ends : (mark .semicolon).kind = .punctuation .semicolon := rfl
  have last : (token .endOfFile).kind = .endOfFile := rfl
  constructor
  · have field : BeforeValue .member ([] ++ name "x" :: ([] ++ [sign])) :=
      .field ⟨none, [], [], _, rfl⟩ rfl untyped rfl
    let body := [] ++ (([] ++ name "x" :: ([] ++ [sign])) ++ (group ++ [mark .semicolon]))
    let tail := name "A" :: mark .leftBrace :: (body ++ [mark .rightBrace])
    have within : Relation.ReflTransGen Encloses (.body .member, body)
        (.body .declaration, [] ++ (([] ++ token (.keyword .classWord) :: tail) ++ [])) := by
      refine .tail ?_ (.part (.nothing .declaration) (.nothing .declaration))
      refine .tail ?_ (.type ⟨none, [], [], _, rfl⟩ rfl)
      exact .single (.classTail rfl rfl rfl)
    exact (ofTokens_groupValue (.nothing .member) (.nothing .member) field isGroup ends within last).2
  · have binding : BeforeValue .statement (token (.keyword .letWord) :: name "x" :: ([] ++ [sign])) :=
      .binding rfl rfl untyped rfl
    let inner := [] ++ ((token (.keyword .letWord) :: name "x" :: ([] ++ [sign])) ++
      (group ++ [mark .semicolon]))
    let loop := token (.keyword .whileWord) ::
      ([name "c"] ++ mark .leftBrace :: (inner ++ [mark .rightBrace]))
    let tail := name "f" :: ([mark .leftParen, mark .rightParen] ++
      ([] ++ mark .leftBrace :: (([] ++ (loop ++ [])) ++ [mark .rightBrace])))
    have within : Relation.ReflTransGen Encloses (.body .statement, inner)
        (.body .declaration, [] ++ (([] ++ token (.keyword .fnWord) :: tail) ++ [])) := by
      refine .tail ?_ (.part (.nothing .declaration) (.nothing .declaration))
      refine .tail ?_ (.function ⟨none, [], [], _, rfl⟩ rfl)
      refine .tail ?_ (.methodTail rfl ⟨none, [], [], _, rfl⟩ ⟨none, [], [], _, rfl⟩)
      refine .tail ?_ (.block rfl rfl)
      refine .tail ?_ (.part (.nothing .statement) (.nothing .statement))
      refine .tail ?_ (.repeatWhile rfl ⟨none, [], [], _, rfl⟩)
      exact .single (.block rfl rfl)
    exact (ofTokens_groupValue (.nothing .statement) (.nothing .statement) binding isGroup ends within
      last).2

end Program

end DataClass
