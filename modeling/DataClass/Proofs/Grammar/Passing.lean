import DataClass.Proofs.Grammar.Tracking.Basic
import DataClass.Proofs.Grammar.Unplaced
namespace DataClass.Grammar

namespace Cursor

variable {cursor : Cursor} {token : Token} {rest : List Token}

theorem current_eq (ahead : cursor.rest = token :: rest) : cursor.current = token := by
  rw [current, ahead]
  rfl

theorem step_eq (ahead : cursor.rest = token :: rest) (more : token.kind ≠ .endOfFile) :
    cursor.step = ⟨some token.span, rest, cursor.reported⟩ := by
  simp [step, ahead, more]

end Cursor

namespace Reader

/-! Readers that go on behind faults: they take some tokens and report what is wrong with them. -/

variable {α β : Type}

/-- At a cursor the reader succeeds with a value as wanted, up to the tokens `ending`, and reports the
faults, the first one first. -/
def Passes (reader : Reader α) (cursor : Cursor) (ending : List Token) (faults : List Diagnostic)
    (wanted : α → Prop) : Prop :=
  ∃ result last, reader cursor = .value result ⟨last, ending, faults.reverse ++ cursor.reported⟩ ∧
    wanted result

variable {cursor : Cursor} {token : Token} {middle ending : List Token}
  {faults later : List Diagnostic} {wanted : α → Prop} {got : β → Prop}

theorem passes_pure {result : α} (ahead : cursor.rest = ending) (good : wanted result) :
    Passes (pure result) cursor ending [] wanted := by
  subst ahead
  exact ⟨result, cursor.previous, rfl, good⟩

theorem Passes.bind {reader : Reader β} {following : β → Reader α}
    (first : Passes reader cursor middle faults got)
    (goes : ∀ result next, next.rest = middle → got result →
      Passes (following result) next ending later wanted) :
    Passes (reader >>= following) cursor ending (faults ++ later) wanted := by
  obtain ⟨result, last, read, good⟩ := first
  obtain ⟨final, stop, further, fine⟩ :=
    goes result ⟨last, middle, faults.reverse ++ cursor.reported⟩ rfl good
  refine ⟨final, stop, ?_, fine⟩
  rw [bind_value read, further, List.reverse_append, List.append_assoc]

/-- Going on behind a reader that reports nothing. -/
theorem Passes.quietly {reader : Reader β} {following : β → Reader α}
    (first : Passes reader cursor middle [] got)
    (goes : ∀ result next, next.rest = middle → got result →
      Passes (following result) next ending later wanted) :
    Passes (reader >>= following) cursor ending later wanted := first.bind goes

/-- Going on with nothing left to report. -/
theorem Passes.finish {reader : Reader β} {following : β → Reader α}
    (first : Passes reader cursor middle faults got)
    (goes : ∀ result next, next.rest = middle → got result →
      Passes (following result) next ending [] wanted) :
    Passes (reader >>= following) cursor ending faults wanted := by
  have both := first.bind goes
  rwa [List.append_nil] at both

theorem passes_advance (ahead : cursor.rest = token :: ending) (more : token.kind ≠ .endOfFile) :
    Passes advance cursor ending [] fun _ => True :=
  ⟨(), some token.span, by rw [advance, Cursor.step_eq ahead more]; rfl, trivial⟩

theorem passes_current {following : Token → Reader α} (ahead : cursor.rest = token :: middle)
    (goes : Passes (following token) cursor ending faults wanted) :
    Passes (current >>= following) cursor ending faults wanted := by
  rw [← Cursor.current_eq ahead] at goes
  exact goes

theorem passes_currentKind {following : TokenKind → Reader α} {kind : TokenKind}
    (ahead : cursor.rest = token :: middle) (same : token.kind = kind)
    (goes : Passes (following kind) cursor ending faults wanted) :
    Passes (currentKind >>= following) cursor ending faults wanted := by
  rw [← same, ← Cursor.current_eq ahead] at goes
  exact goes

theorem passes_isNext {following : Bool → Reader α} {kind : TokenKind}
    (goes : Passes (following (cursor.current.kind == kind)) cursor ending faults wanted) :
    Passes (isNext kind >>= following) cursor ending faults wanted := goes

theorem passes_remaining {following : Nat → Reader α}
    (goes : Passes (following cursor.rest.length) cursor ending faults wanted) :
    Passes (remaining >>= following) cursor ending faults wanted := goes

theorem passes_spanFrom {following : Span → Reader α} (start : Nat)
    (goes : ∀ span, Passes (following span) cursor ending faults wanted) :
    Passes (spanFrom start >>= following) cursor ending faults wanted := goes _

theorem passes_previousSpan {following : Span → Reader α}
    (goes : ∀ span, Passes (following span) cursor ending faults wanted) :
    Passes (previousSpan >>= following) cursor ending faults wanted := goes _

theorem passes_accept {kind : TokenKind} {found other : Reader α}
    (ahead : cursor.rest = token :: middle) (same : token.kind = kind) (more : kind ≠ .endOfFile)
    (goes : ∀ next : Cursor, next.rest = middle → Passes found next ending faults wanted) :
    Passes (accept kind >>= fun here => if here = true then found else other) cursor ending faults
      wanted := by
  subst same
  have accepts : Passes (accept token.kind) cursor middle [] (· = true) :=
    ⟨true, some token.span, by simp [accept, Cursor.current_eq ahead, Cursor.step_eq ahead more], rfl⟩
  refine accepts.quietly fun here next behind found => ?_
  subst found
  exact goes next behind

theorem passes_decline {kind : TokenKind} {found other : Reader α}
    (absent : cursor.current.kind ≠ kind) (goes : Passes other cursor ending faults wanted) :
    Passes (accept kind >>= fun here => if here = true then found else other) cursor ending faults
      wanted := by
  have declines : accept kind cursor = .value false cursor := by simp [accept, absent]
  rw [Passes, bind_value declines]
  exact goes

theorem passes_expect {kind : TokenKind} (expected : String) (ahead : cursor.rest = token :: ending)
    (same : token.kind = kind) (more : kind ≠ .endOfFile) :
    Passes (expect kind expected) cursor ending [] fun _ => True :=
  passes_accept ahead same more fun _ behind => passes_pure behind trivial

theorem passes_identifier {name : String} (ahead : cursor.rest = token :: ending)
    (same : token.kind = .identifier name) :
    Passes identifier cursor ending [] fun _ => True := by
  refine passes_currentKind ahead same ?_
  refine (passes_advance ahead (by simp [same])).quietly fun _ _ behind _ => ?_
  exact passes_pure behind trivial

/-! What a reader does with some tokens it does wherever they stand. -/

variable {run old : List Token} {one two : Reader α} {takes takes' closed : Prop}

theorem Unplaced.value {result : α} {next : Cursor} {place : Option Span}
    (unplaced : Unplaced takes one cursor place) (read : one cursor = .value result next) :
    ∃ last, one (cursor.behind place) = .value result (next.behind last) := by
  rcases unplaced with same | ⟨_, here, _⟩ | ⟨_, _, here, there⟩
  · exact ⟨next.previous, same.trans read⟩
  · cases here.symm.trans read
  · cases here.symm.trans read
    exact ⟨place, there⟩

theorem Unplaced.failure {fault : Diagnostic} {next : Cursor} {place : Option Span}
    (unplaced : Unplaced takes one cursor place) (read : one cursor = .failure fault next) :
    ∃ last, one (cursor.behind place) = .failure fault (next.behind last) := by
  rcases unplaced with same | ⟨_, here, there⟩ | ⟨_, _, here, _⟩
  · exact ⟨next.previous, same.trans read⟩
  · cases here.symm.trans read
    exact ⟨place, there⟩
  · cases here.symm.trans read

/-- Tokens that are taken somewhere are taken wherever they stand. -/
theorem passes_of_value {new : List Token} (left : List Token) {previous last : Option Span}
    {reported : List Diagnostic} {result : α}
    (tracks : ∀ cursor : Cursor, cursor.rest = run ++ old →
      Tracks old new takes closed one two cursor)
    (unplaced : ∀ cursor place, Unplaced takes' one cursor place)
    (unplaced' : ∀ cursor place, Unplaced takes' two cursor place)
    (read : one ⟨previous, run ++ old, reported⟩ = .value result ⟨last, left ++ old, reported⟩)
    (atEnd : left = [] → closed) (ahead : cursor.rest = run ++ new) :
    Passes two cursor (left ++ new) [] (· = result) := by
  obtain ⟨place, moved⟩ := (unplaced _ (some .origin)).value read
  have there := (tracks _ rfl).value rfl run left result place cursor.reported rfl moved atEnd
  obtain ⟨stop, back⟩ := (unplaced' _ cursor.previous).value there
  obtain ⟨previous', tokens, reported'⟩ := cursor
  subst ahead
  exact ⟨result, stop, back, rfl⟩

/-- Tokens that are refused somewhere are refused wherever they stand. -/
theorem failure_elsewhere {left new : List Token} {previous last : Option Span}
    {reported : List Diagnostic} {fault : Diagnostic}
    (tracks : ∀ cursor : Cursor, cursor.rest = run ++ old →
      Tracks old new takes closed one two cursor)
    (unplaced : ∀ cursor place, Unplaced takes' one cursor place)
    (unplaced' : ∀ cursor place, Unplaced takes' two cursor place)
    (read : one ⟨previous, run ++ old, reported⟩ = .failure fault ⟨last, left ++ old, reported⟩)
    (some' : left ≠ []) (ahead : cursor.rest = run ++ new) :
    ∃ stop, two cursor = .failure fault ⟨stop, left ++ new, cursor.reported⟩ := by
  obtain ⟨place, moved⟩ := (unplaced _ (some .origin)).failure read
  have there := (tracks _ rfl).failure rfl run left fault place cursor.reported rfl moved some'
  obtain ⟨stop, back⟩ := (unplaced' _ cursor.previous).failure there
  obtain ⟨previous', tokens, reported'⟩ := cursor
  subst ahead
  exact ⟨stop, back⟩

end Reader

end DataClass.Grammar
