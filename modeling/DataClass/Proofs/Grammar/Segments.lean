import DataClass.Proofs.Grammar.Completeness.Stmt
import DataClass.Proofs.Grammar.Passing
import DataClass.Proofs.Grammar.Tracking.Declaration
namespace DataClass

namespace Token

/-- A token that neither ends a segment nor opens or closes a body. -/
def Inner (token : Token) : Prop :=
  token.kind ∉ [.punctuation .semicolon, .punctuation .leftBrace, .punctuation .rightBrace, .endOfFile]

end Token

namespace Grammar

/-! The segments of a body: runs of tokens that are read as one of its parts, and runs that are
refused as a whole, up to a semicolon. -/

/-- What a body consists of. -/
inductive Part where
  | member
  | statement
  | declaration

namespace Part

def Value : Part → Type
  | .member => Member
  | .statement => Stmt
  | .declaration => Declaration

/-- How the next part is found behind a faulty one. -/
def recovery : Part → Recovery
  | .member => .members
  | .statement => .statements
  | .declaration => .declarations

def reader : (part : Part) → Reader part.Value
  | .member => Reader.member
  | .statement => Reader.statement
  | .declaration => Reader.declaration

/-- The reader of a part with bodies inside of it up to a depth. -/
def readerAt : (part : Part) → Nat → Reader part.Value
  | .member, depth => Reader.memberAt depth
  | .statement, depth => Reader.statementAt depth
  | .declaration, _ => Reader.declaration

/-- What may stand behind a part that has been read. Only an `if` could go on, with an `else`. -/
def Follows : Part → List Token → Prop
  | .statement, tokens => Reader.NoElse tokens
  | .member, _ | .declaration, _ => True

variable (part : Part) {cursor : Cursor} {old new : List Token} {turns other depth : Nat}

theorem reader_eq (cursor : Cursor) :
    part.reader cursor = part.readerAt (cursor.rest.length + 1) cursor := by
  cases part <;> rfl

theorem tracks_readerAt (enough : cursor.Enough old new turns other) :
    Reader.Tracks old new True (part.Follows new) (part.readerAt (turns + 1))
      (part.readerAt (other + 1)) cursor := by
  cases part with
  | member => exact Reader.tracks_memberAt enough
  | statement => exact Reader.tracks_statementAt enough
  | declaration => exact Reader.tracks_declaration

theorem unplaced_readerAt (cursor : Cursor) (place : Option Span) :
    Reader.Unplaced True (part.readerAt (depth + 1)) cursor place := by
  cases part with
  | member => exact Reader.unplaced_memberWith _
  | statement => exact Reader.unplaced_statementWith _
  | declaration => exact Reader.unplaced_declaration

end Part

/-- Somewhere the reader takes just a run of tokens, followed by some others, and reports nothing. -/
def Accepts {α : Type} (reader : Reader α) (run follow : List Token) (result : α) : Prop :=
  ∃ previous ending reported last,
    reader ⟨previous, run ++ (follow ++ ending), reported⟩ =
      .value result ⟨last, follow ++ ending, reported⟩

/-- A run of tokens without braces, up to the only semicolon in it, on which the reader of a part
fails somewhere. Behind the token it stops at there is none at which a part may begin. -/
structure Refuses (part : Part) (run : List Token) (fault : Diagnostic) : Prop where
  closed : ∃ body semicolon, run = body ++ [semicolon] ∧
    semicolon.kind = .punctuation .semicolon ∧ ∀ token ∈ body, token.Inner
  begun : part.Follows run
  refused : ∃ before here later previous ending reported next,
    run = before ++ here :: later ∧
    part.reader ⟨previous, run ++ ending, reported⟩ = .failure fault next ∧
    next.rest = here :: later ++ ending ∧
    ∀ token ∈ later, part.recovery.isRestart token.kind = false

namespace Refuses

variable {part : Part} {run : List Token} {fault : Diagnostic}

theorem exists_left (refuses : Refuses part run fault) {before left : List Token}
    (split : run = before ++ left) (some : left ≠ []) :
    ∃ body semicolon, left = body ++ [semicolon] ∧ semicolon.kind = .punctuation .semicolon ∧
      ∀ token ∈ body, token.Inner := by
  obtain ⟨body, semicolon, same, last, inner⟩ := refuses.closed
  rcases List.append_eq_append_iff.mp (split.symm.trans same) with
    ⟨more, whole, tail⟩ | ⟨more, _, single⟩
  · exact ⟨more, semicolon, tail, last, fun token inside =>
      inner token (whole ▸ List.mem_append_right _ inside)⟩
  · refine ⟨[], semicolon, ?_, last, by simp⟩
    rcases List.append_eq_singleton_iff.mp single.symm with ⟨_, tail⟩ | ⟨_, none⟩
    · exact tail
    · exact absurd none some

theorem without_brace (refuses : Refuses part run fault) :
    ∀ token ∈ run, token.kind ≠ .punctuation .leftBrace := by
  obtain ⟨body, semicolon, rfl, last, inner⟩ := refuses.closed
  intro token inside brace
  rcases List.mem_append.mp inside with inside | inside
  · exact inner token inside (by simp [brace])
  · obtain rfl := List.mem_singleton.mp inside
    rw [brace] at last
    cases last

theorem ne_nil (refuses : Refuses part run fault) : run ≠ [] := by
  obtain ⟨body, semicolon, rfl, _⟩ := refuses.closed
  simp

theorem isEnd_head (refuses : Refuses part run fault) {cursor : Cursor} {ending : List Token}
    (ahead : cursor.rest = run ++ ending) : part.recovery.isEnd cursor.current.kind = false := by
  obtain ⟨body, semicolon, rfl, last, inner⟩ := refuses.closed
  cases body with
  | nil =>
      rw [Cursor.current, ahead]
      simp [last, Recovery.isEnd]
  | cons token body =>
      have inner := inner token List.mem_cons_self
      rw [Cursor.current, ahead]
      obtain ⟨kind, span⟩ := token
      cases kind with
      | punctuation mark => cases mark <;> simp_all [Recovery.isEnd, Token.Inner]
      | _ => simp_all [Recovery.isEnd, Token.Inner]

end Refuses

namespace Recovery

variable (recovery : Recovery)

theorem skip_inner {token : Token} {moved : Bool} {previous : Option Span} (rest : List Token)
    (inner : token.Inner) (stay : (moved && recovery.isRestart token.kind) = false) :
    recovery.skip moved 0 previous (token :: rest) = recovery.skip true 0 (some token.span) rest := by
  obtain ⟨kind, span⟩ := token
  cases kind with
  | punctuation mark => cases mark <;> simp_all [skip, isEnd, Token.Inner]
  | _ => simp_all [skip, isEnd, Token.Inner]

theorem skip_segment {moved : Bool} {previous : Option Span} {body : List Token} {semicolon : Token}
    (ending : List Token) (last : semicolon.kind = .punctuation .semicolon)
    (inner : ∀ token ∈ body, token.Inner)
    (plain : moved = true → ∀ token ∈ body, recovery.isRestart token.kind = false)
    (behind : ∀ token ∈ body.tail, recovery.isRestart token.kind = false) :
    recovery.skip moved 0 previous (body ++ semicolon :: ending) = (some semicolon.span, ending) := by
  induction body generalizing moved previous with
  | nil => simp [skip, last, isEnd, isRestart]
  | cons token body ih =>
      have stay : (moved && recovery.isRestart token.kind) = false := by
        cases moved with
        | false => rfl
        | true => simpa using plain rfl token List.mem_cons_self
      rw [List.cons_append, recovery.skip_inner _ (inner token List.mem_cons_self) stay]
      exact ih (fun token inside => inner token (List.mem_cons_of_mem _ inside))
        (fun _ token inside => behind token inside)
        fun token inside => behind token (List.mem_of_mem_tail inside)

end Recovery

namespace Reader

variable {part : Part} {run ending : List Token} {fault : Diagnostic} {cursor : Cursor} {depth : Nat}

theorem enough_of_run {old new : List Token} {turns other : Nat} (ahead : cursor.rest = run ++ old)
    (here : (run ++ old).length ≤ turns) (there : (run ++ new).length ≤ other) :
    cursor.Enough old new turns other := by
  rw [List.length_append] at here there
  constructor <;> rw [ahead, List.length_append] <;> omega

/-- A run of tokens that is accepted somewhere is taken wherever it stands in front of the same tokens. -/
theorem passes_accepted {α : Type} {reader : Reader α} {follow : List Token} {result : α}
    {takes takes' closed : Prop} (accepted : Accepts reader run follow result)
    (tracks : ∀ old new cursor, Tracks old new takes closed reader reader cursor)
    (unplaced : ∀ cursor place, Unplaced takes' reader cursor place) (atEnd : follow = [] → closed)
    (ahead : cursor.rest = run ++ (follow ++ ending)) :
    Passes reader cursor (follow ++ ending) [] (· = result) := by
  obtain ⟨previous, old, reported, last, read⟩ := accepted
  rw [← List.append_assoc] at read ahead
  exact passes_of_value follow (fun cursor _ => tracks old ending cursor) unplaced unplaced read atEnd
    ahead

/-- A part that is accepted somewhere is read wherever it stands. -/
theorem passes_part {result : part.Value} (accepted : Accepts part.reader run [] result)
    (ahead : cursor.rest = run ++ ending) (enough : cursor.rest.length ≤ depth)
    (follows : part.Follows ending) :
    Passes (part.readerAt (depth + 1)) cursor ending [] fun _ => True := by
  obtain ⟨previous, old, reported, last, read⟩ := accepted
  rw [part.reader_eq] at read
  rw [ahead] at enough
  obtain ⟨_, stop, goes, _⟩ := passes_of_value [] (fun cursor same =>
    part.tracks_readerAt (enough_of_run same (Nat.le_refl _) enough))
    (fun cursor => part.unplaced_readerAt cursor) (fun cursor => part.unplaced_readerAt cursor) read
    (fun _ => follows) ahead
  exact ⟨_, stop, goes, trivial⟩

/-- A segment that is refused is refused wherever it stands, with the same fault and no other, and
reading goes on right behind it. -/
theorem failure_of_refuses (refuses : Refuses part run fault)
    (ahead : cursor.rest = run ++ ending) (enough : cursor.rest.length ≤ depth) :
    ∃ next, part.readerAt (depth + 1) cursor = .failure fault next ∧
      ∃ place, next.resume part.recovery fault = ⟨place, ending, fault :: cursor.reported⟩ := by
  obtain ⟨before, here, later, previous, old, reported, next, split, read, stop, plain⟩ := refuses.refused
  rw [part.reader_eq] at read
  rw [ahead] at enough
  have tracks : ∀ cursor : Cursor, cursor.rest = run ++ old →
      Tracks old ending True (part.Follows ending) (part.readerAt ((run ++ old).length + 1))
        (part.readerAt (depth + 1)) cursor :=
    fun cursor same => part.tracks_readerAt (enough_of_run same (Nat.le_refl _) enough)
  have quiet : next.reported = reported := by
    refine ((tracks _ rfl).onward_failure read).calm before ?_ fun token inside =>
      refuses.without_brace token (by rw [split]; exact List.mem_append_left _ inside)
    rw [stop, ← List.append_assoc, ← split]
  obtain ⟨place, tokens, faults⟩ := next
  subst stop quiet
  obtain ⟨last, goes⟩ := failure_elsewhere tracks (fun cursor => part.unplaced_readerAt cursor)
    (fun cursor => part.unplaced_readerAt cursor) read (by simp) ahead
  refine ⟨_, goes, ?_⟩
  obtain ⟨body, semicolon, left, final, inner⟩ := refuses.exists_left split (by simp)
  have behind : ∀ token ∈ body.tail, part.recovery.isRestart token.kind = false := by
    cases body with
    | nil => simp
    | cons token body =>
        obtain ⟨_, rfl⟩ := List.cons.inj left
        exact fun token inside => plain token (List.mem_append_left _ inside)
  have skipped : part.recovery.skip false 0 last (here :: later ++ ending) =
      (some semicolon.span, ending) := by
    rw [left, List.append_assoc]
    exact part.recovery.skip_segment ending final inner (by simp) behind
  exact ⟨some semicolon.span, by rw [Cursor.resume, skipped]⟩

end Reader

namespace Reader

/-! What a part of a body begins with. -/

variable {cursor next : Cursor}

theorem tags_of_other (absent : cursor.current.kind ≠ .punctuation .at) (turns : Nat) :
    tags turns cursor = .value [] cursor := by
  cases turns with
  | zero => rfl
  | succ turns =>
      change (if cursor.current.kind = .punctuation .at then _ else pure [] : Reader _) cursor = _
      rw [if_neg absent]
      rfl

theorem modifiers_of_other (tag : cursor.current.kind ≠ .punctuation .at)
    (shown : cursor.current.kind ≠ .keyword .pubWord)
    (hidden : cursor.current.kind ≠ .keyword .privWord) :
    modifiers cursor = .value ⟨[], false, cursor.current.span.start⟩ cursor := by
  have shown : accept (.keyword .pubWord) cursor = .value false cursor := by simp [accept, shown]
  have hidden : accept (.keyword .privWord) cursor = .value false cursor := by simp [accept, hidden]
  change (tags cursor.rest.length >>= _) cursor = _
  rw [bind_value (tags_of_other tag _), bind_value shown]
  exact bind_value hidden

theorem currentKind_of {kind : TokenKind} (here : cursor.current.kind = kind) :
    currentKind cursor = .value kind cursor := by
  rw [currentKind, here]

theorem isEnd_of_memberWith {inner : Reader Member} {result : Member}
    (read : memberWith inner cursor = .value result next) :
    Recovery.members.isEnd cursor.current.kind = false := by
  have fails : cursor.current.kind ≠ .endOfFile ∧ cursor.current.kind ≠ .punctuation .rightBrace := by
    constructor <;>
    · intro here
      rw [memberWith, bind_value (modifiers_of_other (by simp [here]) (by simp [here])
        (by simp [here])), bind_value (currentKind_of here)] at read
      cases read
  cases here : cursor.current.kind with
  | endOfFile => exact absurd here fails.1
  | punctuation mark =>
      cases mark with
      | rightBrace => exact absurd here fails.2
      | _ => rfl
  | _ => rfl

theorem isEnd_of_declaration {result : Declaration}
    (read : declaration cursor = .value result next) :
    Recovery.declarations.isEnd cursor.current.kind = false := by
  cases here : cursor.current.kind with
  | endOfFile =>
      rw [declaration, bind_value (modifiers_of_other (by simp [here]) (by simp [here])
        (by simp [here])), bind_value (currentKind_of here)] at read
      cases read
  | punctuation mark => cases mark <;> rfl
  | _ => rfl

theorem opensExpr_of_expression {result : Expr} (read : expression cursor = .value result next) :
    cursor.current.kind.opensExpr = true := by
  obtain ⟨_, taken, front, shaped, rfl⟩ := soundExpr_expression cursor result next read
  obtain ⟨first, others, same, opens⟩ := shaped.opensExpr
  rw [same, List.cons_append] at front
  rw [Cursor.current_kind_cons front]
  exact opens

theorem opensStmt_of_statementWith {inner : Reader Stmt} {result : Stmt}
    (read : statementWith inner cursor = .value result next) :
    cursor.current.kind.opensStmt = true := by
  cases opens : cursor.current.kind.opensStmt with
  | true => rfl
  | false =>
      have token : current cursor = .value cursor.current cursor := rfl
      have evaluates : statementWith inner cursor = evaluateFrom cursor.current.span.start cursor := by
        rw [statementWith, bind_value token]
        cases kind : cursor.current.kind with
        | keyword word =>
            rw [kind] at opens
            cases word <;> first | rfl | cases opens
        | _ => rfl
      rw [evaluates] at read
      obtain ⟨_, _, first, _⟩ := exists_first read
      exact opens.symm.trans (TokenKind.opensStmt_of_opensExpr (opensExpr_of_expression first))

end Reader

namespace Part

variable {part : Part} {cursor next : Cursor} {depth : Nat}

/-- A part that has been read does not begin like the end of a body, nor like what may go on with the
part in front of it. -/
theorem opens_of_value {result : part.Value}
    (read : part.readerAt (depth + 1) cursor = .value result next) :
    part.recovery.isEnd cursor.current.kind = false ∧ part.Follows cursor.rest := by
  cases part with
  | member => exact ⟨Reader.isEnd_of_memberWith read, trivial⟩
  | declaration => exact ⟨Reader.isEnd_of_declaration read, trivial⟩
  | statement =>
      have opens := Reader.opensStmt_of_statementWith read
      refine ⟨Reader.isEnd_of_opensStmt opens, fun otherwise => ?_⟩
      obtain ⟨token, ahead, word⟩ := Option.map_eq_some_iff.mp otherwise
      rw [Cursor.current, ahead, Option.getD_some, word] at opens
      cases opens

end Part

end Grammar

end DataClass
