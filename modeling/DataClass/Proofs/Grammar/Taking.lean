import DataClass.Grammar.Recovery
import DataClass.Proofs.Grammar.Yield
namespace DataClass.Grammar

/-! Readers that succeed. What a reader does is looked at through the kinds of the tokens ahead of
it: which of them it takes, and what the value it reads is like. -/

namespace Cursor

def kinds (cursor : Cursor) : List TokenKind := cursor.rest.map Token.kind

theorem length_kinds (cursor : Cursor) : cursor.kinds.length = cursor.rest.length :=
  List.length_map ..

theorem current_kind (cursor : Cursor) :
    cursor.current.kind = cursor.kinds.head?.getD .endOfFile := by
  obtain ⟨previous, rest, reported⟩ := cursor
  cases rest <;> rfl

theorem current_kind_cons {cursor : Cursor} {kind : TokenKind} {rest : List TokenKind}
    (ahead : cursor.kinds = kind :: rest) : cursor.current.kind = kind := by
  rw [current_kind, ahead]
  rfl

theorem reported_step (cursor : Cursor) : cursor.step.reported = cursor.reported := by
  unfold step
  split
  · rfl
  · split <;> rfl

theorem kinds_step {cursor : Cursor} {kind : TokenKind} {rest : List TokenKind}
    (ahead : cursor.kinds = kind :: rest) (more : kind ≠ .endOfFile) : cursor.step.kinds = rest := by
  obtain ⟨previous, tokens, reported⟩ := cursor
  cases tokens with
  | nil => cases ahead
  | cons token later =>
      obtain ⟨rfl, rfl⟩ := List.cons.inj ahead
      simp [step, more, kinds]

end Cursor

namespace Reader

variable {α β : Type}

/-- At a cursor the reader succeeds, leaves tokens of the kinds `rest`, reports nothing, and the
value it reads is as wanted. -/
def Takes (reader : Reader α) (cursor : Cursor) (rest : List TokenKind) (wanted : α → Prop) :
    Prop :=
  ∃ result next, reader cursor = .value result next ∧ next.kinds = rest ∧
    next.reported = cursor.reported ∧ wanted result

variable {cursor : Cursor} {middle rest : List TokenKind} {wanted : α → Prop} {got : β → Prop}

theorem bind_value {reader : Reader β} {following : β → Reader α} {result : β} {next : Cursor}
    (read : reader cursor = .value result next) :
    (reader >>= following) cursor = following result next := by
  simp only [bind, read]

theorem bind_failure {reader : Reader β} {following : β → Reader α} {fault : Diagnostic}
    {next : Cursor} (read : reader cursor = .failure fault next) :
    (reader >>= following) cursor = .failure fault next := by
  simp only [bind, read]

theorem takes_pure {result : α} (ahead : cursor.kinds = rest) (good : wanted result) :
    Takes (pure result) cursor rest wanted :=
  ⟨result, cursor, rfl, ahead, rfl, good⟩

theorem Takes.bind {reader : Reader β} {following : β → Reader α}
    (first : Takes reader cursor middle got)
    (later : ∀ result next, next.kinds = middle → got result →
      Takes (following result) next rest wanted) :
    Takes (reader >>= following) cursor rest wanted := by
  obtain ⟨result, next, read, left, quiet, good⟩ := first
  obtain ⟨final, last, readLater, leftLater, quietLater, goodLater⟩ := later result next left good
  refine ⟨final, last, ?_, leftLater, quietLater.trans quiet, goodLater⟩
  rw [bind_value read]
  exact readLater

theorem Takes.map {reader : Reader β} {change : β → α} (first : Takes reader cursor rest got)
    (good : ∀ result, got result → wanted (change result)) :
    Takes (reader >>= fun result => pure (change result)) cursor rest wanted :=
  first.bind fun result _ ahead read => takes_pure ahead (good result read)

theorem Takes.weaken {reader : Reader α} {weaker : α → Prop}
    (taken : Takes reader cursor rest wanted) (weaken : ∀ result, wanted result → weaker result) :
    Takes reader cursor rest weaker := by
  obtain ⟨result, next, read, left, quiet, good⟩ := taken
  exact ⟨result, next, read, left, quiet, weaken result good⟩

/-- At a cursor the reader comes to a loop, with a value as wanted, with tokens of the kinds `rest`
ahead, and with fuel for all of them. -/
def Reaches (reader : Reader α) (cursor : Cursor) (rest : List TokenKind)
    (loop : Nat → α → Reader α) (wanted : α → Prop) : Prop :=
  ∃ fuel result next, reader cursor = loop fuel result next ∧ next.kinds = rest ∧
    next.reported = cursor.reported ∧ rest.length ≤ fuel ∧ wanted result

theorem reaches_loop {loop : Nat → α → Reader α} {fuel : Nat} {result : α}
    (ahead : cursor.kinds = rest) (enough : rest.length ≤ fuel) (good : wanted result) :
    Reaches (loop fuel result) cursor rest loop wanted :=
  ⟨fuel, result, cursor, rfl, ahead, rfl, enough, good⟩

theorem Reaches.bind {reader : Reader β} {following : β → Reader α} {loop : Nat → α → Reader α}
    (first : Takes reader cursor middle got)
    (later : ∀ result next, next.kinds = middle → got result →
      Reaches (following result) next rest loop wanted) :
    Reaches (reader >>= following) cursor rest loop wanted := by
  obtain ⟨result, next, read, left, quiet, good⟩ := first
  obtain ⟨fuel, final, last, comes, leftLater, quietLater, enough, goodLater⟩ :=
    later result next left good
  refine ⟨fuel, final, last, ?_, leftLater, quietLater.trans quiet, enough, goodLater⟩
  rw [bind_value read]
  exact comes

theorem Takes.reaches {reader : Reader α} {loop : Nat → α → Reader α}
    (first : Takes reader cursor rest wanted) :
    Reaches (reader >>= fun value => remaining >>= fun fuel => loop fuel value) cursor rest loop
      wanted :=
  Reaches.bind first fun _ next left good =>
    reaches_loop left (Nat.le_of_eq (by rw [← left, Cursor.length_kinds])) good

theorem Reaches.step {reader : Reader α} {loop : Nat → α → Reader α} {better : α → Prop}
    (reached : Reaches reader cursor middle loop wanted)
    (again : ∀ fuel result next, next.kinds = middle → middle.length ≤ fuel → wanted result →
      Reaches (loop fuel result) next rest loop better) :
    Reaches reader cursor rest loop better := by
  obtain ⟨fuel, result, next, comes, left, quiet, enough, good⟩ := reached
  obtain ⟨further, final, last, comesLater, leftLater, quietLater, enoughLater, goodLater⟩ :=
    again fuel result next left enough good
  exact ⟨further, final, last, comes.trans comesLater, leftLater, quietLater.trans quiet,
    enoughLater, goodLater⟩

theorem Reaches.takes {reader : Reader α} {loop : Nat → α → Reader α} {better : α → Prop}
    (reached : Reaches reader cursor middle loop wanted)
    (last : ∀ fuel result next, next.kinds = middle → middle.length ≤ fuel → wanted result →
      Takes (loop fuel result) next rest better) : Takes reader cursor rest better := by
  obtain ⟨fuel, result, next, comes, left, quiet, enough, good⟩ := reached
  obtain ⟨final, stop, read, leftLater, quietLater, goodLater⟩ := last fuel result next left enough good
  exact ⟨final, stop, comes.trans read, leftLater, quietLater.trans quiet, goodLater⟩

theorem takes_advance {kind : TokenKind} (ahead : cursor.kinds = kind :: rest)
    (more : kind ≠ .endOfFile) : Takes advance cursor rest fun _ => True :=
  ⟨(), cursor.step, rfl, Cursor.kinds_step ahead more, cursor.reported_step, trivial⟩

theorem takes_current {following : Token → Reader α}
    (later : Takes (following cursor.current) cursor rest wanted) :
    Takes (current >>= following) cursor rest wanted := later

theorem takes_current_of_kind {following : Token → Reader α} {kind : TokenKind}
    (ahead : cursor.kinds = kind :: middle)
    (later : ∀ span, Takes (following ⟨kind, span⟩) cursor rest wanted) :
    Takes (current >>= following) cursor rest wanted := by
  refine takes_current ?_
  have here : cursor.current = ⟨kind, cursor.current.span⟩ := by
    rw [← Cursor.current_kind_cons ahead]
  rw [here]
  exact later _

theorem takes_currentKind {following : TokenKind → Reader α} {kind : TokenKind}
    (ahead : cursor.kinds = kind :: middle) (later : Takes (following kind) cursor rest wanted) :
    Takes (currentKind >>= following) cursor rest wanted := by
  rw [← Cursor.current_kind_cons ahead] at later
  exact later

/-- Going on with whatever kind is next, which may be the end. -/
theorem takes_nextKind {following : TokenKind → Reader α} (ahead : cursor.kinds = middle)
    (later : Takes (following (middle.head?.getD .endOfFile)) cursor rest wanted) :
    Takes (currentKind >>= following) cursor rest wanted := by
  rw [← ahead, ← Cursor.current_kind] at later
  exact later

theorem reaches_currentKind {following : TokenKind → Reader α} {loop : Nat → α → Reader α}
    {kind : TokenKind} (ahead : cursor.kinds = kind :: middle)
    (later : Reaches (following kind) cursor rest loop wanted) :
    Reaches (currentKind >>= following) cursor rest loop wanted := by
  rw [← Cursor.current_kind_cons ahead] at later
  exact later

theorem takes_remaining {following : Nat → Reader α}
    (later : Takes (following cursor.rest.length) cursor rest wanted) :
    Takes (remaining >>= following) cursor rest wanted := later

theorem takes_accept {kind : TokenKind} (ahead : cursor.kinds = kind :: rest)
    (more : kind ≠ .endOfFile) : Takes (accept kind) cursor rest (· = true) := by
  refine ⟨true, cursor.step, ?_, Cursor.kinds_step ahead more, cursor.reported_step, rfl⟩
  simp [accept, Cursor.current_kind_cons ahead]

theorem takes_decline {kind : TokenKind} (ahead : cursor.kinds = rest)
    (other : rest.head?.getD .endOfFile ≠ kind) : Takes (accept kind) cursor rest (· = false) := by
  refine ⟨false, cursor, ?_, ahead, rfl, rfl⟩
  subst ahead
  simp [accept, Cursor.current_kind, other]

theorem takes_accept_bind {kind : TokenKind} {found other : Reader α}
    (ahead : cursor.kinds = kind :: middle) (more : kind ≠ .endOfFile)
    (later : ∀ next, next.kinds = middle → Takes found next rest wanted) :
    Takes (accept kind >>= fun here => if here = true then found else other) cursor rest wanted :=
  (takes_accept ahead more).bind fun _ next left here => by
    subst here
    exact later next left

theorem takes_decline_bind {kind : TokenKind} {found other : Reader α}
    (ahead : cursor.kinds = middle) (absent : middle.head?.getD .endOfFile ≠ kind)
    (later : ∀ next, next.kinds = middle → Takes other next rest wanted) :
    Takes (accept kind >>= fun here => if here = true then found else other) cursor rest wanted :=
  (takes_decline ahead absent).bind fun _ next left here => by
    subst here
    exact later next left

theorem takes_expect {kind : TokenKind} (expected : String) (ahead : cursor.kinds = kind :: rest)
    (more : kind ≠ .endOfFile) : Takes (expect kind expected) cursor rest fun _ => True :=
  takes_accept_bind ahead more fun _ left => takes_pure left trivial

theorem takes_identifier {name : String} (ahead : cursor.kinds = .identifier name :: rest) :
    Takes identifier cursor rest (· = name) := by
  refine ⟨name, cursor.step, ?_, Cursor.kinds_step ahead (by simp), cursor.reported_step, rfl⟩
  have kind : currentKind cursor = .value (.identifier name) cursor := by
    rw [currentKind, Cursor.current_kind_cons ahead]
  rw [identifier, bind_value kind]
  rfl

theorem takes_isNext {kind : TokenKind} (ahead : cursor.kinds = rest) :
    Takes (isNext kind) cursor rest (· = (rest.head?.getD .endOfFile == kind)) := by
  subst ahead
  exact ⟨_, cursor, rfl, rfl, rfl, by rw [Cursor.current_kind]⟩

theorem takes_attempt {reader : Reader α} (taken : Takes reader cursor rest wanted) :
    Takes (attempt reader) cursor rest fun read => ∃ result, read = .ok result ∧ wanted result := by
  obtain ⟨result, next, read, left, quiet, good⟩ := taken
  refine ⟨.ok result, next, ?_, left, quiet, result, rfl, good⟩
  rw [attempt, read]

theorem takes_segments {names : List String} {fuel : Nat} (enough : cursor.kinds.length ≤ fuel)
    (ahead : cursor.kinds = TokenKind.afterPoints names ++ rest)
    (stop : rest.head?.getD .endOfFile ≠ .punctuation .dot) :
    Takes (segments fuel) cursor rest (· = names) := by
  induction fuel generalizing names cursor with
  | zero =>
      obtain rfl : names = [] := by
        cases names with
        | nil => rfl
        | cons name names => simp [ahead, TokenKind.afterPoints] at enough
      exact takes_pure ahead rfl
  | succ fuel ih =>
      cases names with
      | nil => exact takes_decline_bind ahead stop fun _ left => takes_pure left rfl
      | cons name names =>
          rw [TokenKind.afterPoints_cons, List.cons_append, List.cons_append] at ahead
          refine takes_accept_bind ahead (by simp) fun _ left => ?_
          refine (takes_identifier left).bind fun _ next left read => ?_
          refine (ih ?_ left).map fun _ later => by rw [read, later]
          rw [ahead, List.length_cons, List.length_cons] at enough
          rw [left]
          omega

theorem takes_dottedPath {path : List String} (segments : path ≠ [])
    (ahead : cursor.kinds = TokenKind.pathKinds path ++ rest)
    (stop : rest.head?.getD .endOfFile ≠ .punctuation .dot) :
    Takes dottedPath cursor rest (· = path) := by
  cases path with
  | nil => exact absurd rfl segments
  | cons first names =>
      refine (takes_identifier ahead).bind fun _ next left read => ?_
      exact (takes_segments (Nat.le_of_eq next.length_kinds) left stop).map
        fun _ later => by rw [read, later]

/-- Wherever the tokens of a value stand with something that may follow them, the reader takes them,
and what it reads is that value, as far as `erase` tells. -/
def Reads (reader : Reader α) (kinds : α → List TokenKind) (erase : α → β)
    (Ends : List TokenKind → Prop) (value : α) : Prop :=
  ∀ cursor rest, Ends rest → cursor.kinds = kinds value ++ rest →
    Takes reader cursor rest (erase · = erase value)

/-- Reading items behind commas, where each item can be read before a comma and before what follows
the last one. -/
theorem takes_itemsAfterComma {item : Reader α} {kinds : α → List TokenKind} {erase : α → β}
    {Ends : List TokenKind → Prop} {values : List α} {fuel : Nat}
    (comma : ∀ later, Ends (.punctuation .comma :: later)) (ending : Ends rest)
    (stop : rest.head?.getD .endOfFile ≠ .punctuation .comma)
    (reads : ∀ value ∈ values, Reads item kinds erase Ends value)
    (enough : cursor.kinds.length ≤ fuel)
    (ahead : cursor.kinds = TokenKind.afterCommas (values.map kinds) ++ rest) :
    Takes (itemsAfterComma item fuel) cursor rest (·.map erase = values.map erase) := by
  induction fuel generalizing values cursor with
  | zero =>
      obtain rfl : values = [] := by
        cases values with
        | nil => rfl
        | cons value values => simp [ahead, TokenKind.afterCommas] at enough
      exact takes_pure ahead rfl
  | succ fuel ih =>
      cases values with
      | nil => exact takes_decline_bind ahead stop fun _ left => takes_pure left rfl
      | cons value values =>
          rw [List.map_cons, TokenKind.afterCommas_cons, List.cons_append, List.append_assoc]
            at ahead
          refine takes_accept_bind ahead (by simp) fun next left => ?_
          have open_ : Ends (TokenKind.afterCommas (values.map kinds) ++ rest) := by
            cases values with
            | nil => exact ending
            | cons value values => exact comma _
          refine (reads value List.mem_cons_self next _ open_ left).bind fun first next left read => ?_
          refine (ih (fun value inside => reads value (List.mem_cons_of_mem _ inside)) ?_ left).map
            fun _ later => by rw [List.map_cons, List.map_cons, read, later]
          rw [ahead, List.length_cons, List.length_append] at enough
          rw [left]
          omega

theorem takes_commaSeparated {item : Reader α} {kinds : α → List TokenKind} {erase : α → β}
    {Ends : List TokenKind → Prop} {values : List α} (some : values ≠ [])
    (comma : ∀ later, Ends (.punctuation .comma :: later)) (ending : Ends rest)
    (stop : rest.head?.getD .endOfFile ≠ .punctuation .comma)
    (reads : ∀ value ∈ values, Reads item kinds erase Ends value)
    (ahead : cursor.kinds = TokenKind.separated (values.map kinds) ++ rest) :
    Takes (commaSeparated item) cursor rest (·.map erase = values.map erase) := by
  cases values with
  | nil => exact absurd rfl some
  | cons value values =>
      rw [List.map_cons, TokenKind.separated, List.append_assoc] at ahead
      have open_ : Ends (TokenKind.afterCommas (values.map kinds) ++ rest) := by
        cases values with
        | nil => exact ending
        | cons value values => exact comma _
      refine (reads value List.mem_cons_self cursor _ open_ ahead).bind fun first next left read => ?_
      exact (takes_itemsAfterComma comma ending stop
        (fun value inside => reads value (List.mem_cons_of_mem _ inside))
        (Nat.le_of_eq next.length_kinds) left).map
          fun _ later => by rw [List.map_cons, List.map_cons, read, later]

theorem takes_parenthesized {item : Reader α} {kinds : α → List TokenKind} {erase : α → β}
    {Ends : List TokenKind → Prop} {values : List α} (opening closing : String)
    (comma : ∀ later, Ends (.punctuation .comma :: later))
    (ending : ∀ later, Ends (.punctuation .rightParen :: later))
    (heads : ∀ value ∈ values, ∀ later,
      (kinds value ++ later).head?.getD .endOfFile ≠ .punctuation .rightParen)
    (reads : ∀ value ∈ values, Reads item kinds erase Ends value)
    (ahead : cursor.kinds = TokenKind.parenthesized (values.map kinds) ++ rest) :
    Takes (parenthesized opening closing item) cursor rest (·.map erase = values.map erase) := by
  rw [TokenKind.parenthesized, List.cons_append, List.append_assoc] at ahead
  refine (takes_expect opening ahead (by simp)).bind fun _ next left _ => ?_
  cases values with
  | nil => exact takes_accept_bind left (by simp) fun _ left => takes_pure left rfl
  | cons value values =>
      have first := heads value List.mem_cons_self
      refine takes_decline_bind left ?_ fun next left => ?_
      · rw [List.map_cons, TokenKind.separated, List.append_assoc]
        exact first _
      · refine (takes_commaSeparated (by simp) comma (ending _) (by simp) reads left).bind
          fun items next left read => ?_
        exact (takes_expect closing left (by simp)).bind fun _ next left _ => takes_pure left read

/-- Reading the parts of a body, none of which begins like the end of the body. -/
theorem takes_parts {recovery : Recovery} {part : Reader α} {kinds : α → List TokenKind}
    {erase : α → β} {Ends : List TokenKind → Prop} {values : List α} {fuel : Nat}
    (starts : ∀ value ∈ values, ∀ later, Ends (kinds value ++ later)) (ending : Ends rest)
    (heads : ∀ value ∈ values, ∃ first others, kinds value = first :: others ∧
      recovery.isEnd first = false)
    (stop : recovery.isEnd (rest.head?.getD .endOfFile) = true)
    (reads : ∀ value ∈ values, Reads part kinds erase Ends value)
    (enough : cursor.kinds.length ≤ fuel)
    (ahead : cursor.kinds = values.flatMap kinds ++ rest) :
    Takes (parts recovery part fuel) cursor rest (·.map erase = values.map erase) := by
  induction fuel generalizing values cursor with
  | zero =>
      obtain rfl : values = [] := by
        cases values with
        | nil => rfl
        | cons value values =>
            obtain ⟨first, others, same, _⟩ := heads value List.mem_cons_self
            simp [ahead, same] at enough
      exact takes_pure ahead rfl
  | succ fuel ih =>
      change Takes (if recovery.isEnd cursor.current.kind = true then pure []
        else attempt part >>= _) cursor rest _
      cases values with
      | nil =>
          rw [Cursor.current_kind, show cursor.kinds = rest from ahead, if_pos stop]
          exact takes_pure ahead rfl
      | cons value values =>
          obtain ⟨first, others, same, more⟩ := heads value List.mem_cons_self
          rw [List.flatMap_cons, List.append_assoc] at ahead
          have here : cursor.current.kind = first := by
            rw [same] at ahead
            exact Cursor.current_kind_cons ahead
          have open_ : Ends (values.flatMap kinds ++ rest) := by
            cases values with
            | nil => exact ending
            | cons value values =>
                rw [List.flatMap_cons, List.append_assoc]
                exact starts value (List.mem_cons_of_mem _ List.mem_cons_self) _
          rw [here, more, if_neg Bool.false_ne_true]
          refine (takes_attempt (reads value List.mem_cons_self cursor _ open_ ahead)).bind
            fun _ next left read => ?_
          obtain ⟨result, rfl, read⟩ := read
          refine (ih (fun value inside => starts value (List.mem_cons_of_mem _ inside))
            (fun value inside => heads value (List.mem_cons_of_mem _ inside))
            (fun value inside => reads value (List.mem_cons_of_mem _ inside)) ?_ left).map
              fun _ later => by rw [List.map_cons, List.map_cons, read, later]
          rw [ahead, same, List.length_append, List.length_cons] at enough
          rw [left]
          omega

theorem takes_braced {recovery : Recovery} {part : Reader α} {kinds : α → List TokenKind}
    {erase : α → β} {Ends : List TokenKind → Prop} {values : List α} (opening closing : String)
    (brace : recovery.endsAtBrace = true)
    (starts : ∀ value ∈ values, ∀ later, Ends (kinds value ++ later))
    (ending : ∀ later, Ends (.punctuation .rightBrace :: later))
    (heads : ∀ value ∈ values, ∃ first others, kinds value = first :: others ∧
      recovery.isEnd first = false)
    (reads : ∀ value ∈ values, Reads part kinds erase Ends value)
    (ahead : cursor.kinds = TokenKind.braced (values.flatMap kinds) ++ rest) :
    Takes (braced recovery opening closing part) cursor rest (·.map erase = values.map erase) := by
  rw [TokenKind.braced, List.cons_append, List.append_assoc] at ahead
  refine (takes_expect opening ahead (by simp)).bind fun _ next left _ => ?_
  refine takes_remaining ((takes_parts starts (ending _) heads brace reads
    (Nat.le_of_eq next.length_kinds) left).bind fun body next left read => ?_)
  exact (takes_expect closing left (by simp)).bind fun _ next left _ => takes_pure left read

end Reader

end DataClass.Grammar
