import DataClass.Proofs.Grammar.Segments
namespace DataClass

namespace Grammar

/-! Programs with faulty segments.

Where a body has segments that are refused and everything else can be read, what is reported are
the faults of these segments, in the order of the source. -/

/-- What is read: a part of a body, the parts of a body, the statements in braces, what may stand behind
them if they belong to an `if`, and what stands behind the `class` of a class or the `fn` of a method. -/
inductive Piece where
  | one (part : Part)
  | body (part : Part)
  | block
  | otherwise
  | classTail
  | methodTail

open Reader in
/-- Runs of tokens that are read as a piece, but for some segments of bodies in it, with the faults of
these segments. -/
inductive Flawed : Piece → List Token → List Diagnostic → Prop where
  | accepted {part : Part} {run : List Token} {result : part.Value}
      (read : Accepts part.reader run [] result) : Flawed (.one part) run []
  | nothing (part : Part) : Flawed (.body part) [] []
  | part {part : Part} {run rest : List Token} {faults later : List Diagnostic}
      (first : Flawed (.one part) run faults) (others : Flawed (.body part) rest later) :
      Flawed (.body part) (run ++ rest) (faults ++ later)
  | refused {part : Part} {run rest : List Token} {fault : Diagnostic} {later : List Diagnostic}
      (first : Refuses part run fault) (others : Flawed (.body part) rest later) :
      Flawed (.body part) (run ++ rest) (fault :: later)
  | block {opening closing : Token} {run : List Token} {faults : List Diagnostic}
      (opens : opening.kind = .punctuation .leftBrace) (inside : Flawed (.body .statement) run faults)
      (closes : closing.kind = .punctuation .rightBrace) :
      Flawed .block (opening :: (run ++ [closing])) faults
  | classTail {name opening closing : Token} {run : List Token} {faults : List Diagnostic}
      {text : String} (named : name.kind = .identifier text)
      (opens : opening.kind = .punctuation .leftBrace) (inside : Flawed (.body .member) run faults)
      (closes : closing.kind = .punctuation .rightBrace) :
      Flawed .classTail (name :: opening :: (run ++ [closing])) faults
  | methodTail {name opening : Token} {given written run : List Token} {faults : List Diagnostic}
      {text : String} {params : List Param} {type : Option TypeRef}
      (named : name.kind = .identifier text) (taken : Accepts Reader.params given [] params)
      (typed : Accepts typeAfterColon written [opening] type)
      (inside : Flawed .block (opening :: run) faults) :
      Flawed .methodTail (name :: (given ++ (written ++ opening :: run))) faults
  | nested {word : Token} {front tail : List Token} {faults : List Diagnostic} {found : Modifiers}
      (before : Accepts modifiers front [word] found) (keyword : word.kind = .keyword .classWord)
      (inside : Flawed .classTail tail faults) : Flawed (.one .member) (front ++ word :: tail) faults
  | method {word : Token} {front tail : List Token} {faults : List Diagnostic} {found : Modifiers}
      (before : Accepts modifiers front [word] found) (keyword : word.kind = .keyword .fnWord)
      (inside : Flawed .methodTail tail faults) : Flawed (.one .member) (front ++ word :: tail) faults
  | constructor {word : Token} {front given run : List Token} {faults : List Diagnostic}
      {found : Modifiers} {params : List Param} (before : Accepts modifiers front [word] found)
      (keyword : word.kind = .keyword .newWord) (taken : Accepts Reader.params given [] params)
      (inside : Flawed .block run faults) : Flawed (.one .member) (front ++ word :: (given ++ run)) faults
  | initializer {word : Token} {front run : List Token} {faults : List Diagnostic} {found : Modifiers}
      (before : Accepts modifiers front [word] found) (untagged : found.tags = [])
      (keyword : word.kind = .keyword .initWord) (inside : Flawed .block run faults) :
      Flawed (.one .member) (front ++ word :: run) faults
  | type {word : Token} {front tail : List Token} {faults : List Diagnostic} {found : Modifiers}
      (before : Accepts modifiers front [word] found) (keyword : word.kind = .keyword .classWord)
      (inside : Flawed .classTail tail faults) :
      Flawed (.one .declaration) (front ++ word :: tail) faults
  | function {word : Token} {front tail : List Token} {faults : List Diagnostic} {found : Modifiers}
      (before : Accepts modifiers front [word] found) (keyword : word.kind = .keyword .fnWord)
      (inside : Flawed .methodTail tail faults) :
      Flawed (.one .declaration) (front ++ word :: tail) faults
  | choose {word opening : Token} {test run rest : List Token} {faults later : List Diagnostic}
      {condition : Expr} (keyword : word.kind = .keyword .ifWord)
      (tested : Accepts expression test [opening] condition)
      (inside : Flawed .block (opening :: run) faults) (others : Flawed .otherwise rest later) :
      Flawed (.one .statement) (word :: (test ++ (opening :: run ++ rest))) (faults ++ later)
  | repeatWhile {word opening : Token} {test run : List Token} {faults : List Diagnostic}
      {condition : Expr} (keyword : word.kind = .keyword .whileWord)
      (tested : Accepts expression test [opening] condition)
      (inside : Flawed .block (opening :: run) faults) :
      Flawed (.one .statement) (word :: (test ++ opening :: run)) faults
  | withoutElse : Flawed .otherwise [] []
  | elseBlock {word opening : Token} {run : List Token} {faults : List Diagnostic}
      (keyword : word.kind = .keyword .elseWord) (opens : opening.kind = .punctuation .leftBrace)
      (inside : Flawed .block (opening :: run) faults) :
      Flawed .otherwise (word :: opening :: run) faults
  | elseIf {word again : Token} {run : List Token} {faults : List Diagnostic}
      (keyword : word.kind = .keyword .elseWord) (chained : again.kind = .keyword .ifWord)
      (inside : Flawed (.one .statement) (again :: run) faults) :
      Flawed .otherwise (word :: again :: run) faults

/-- Tokens that end a body. -/
def Part.Stops (part : Part) (ending : List Token) : Prop :=
  part.recovery.isEnd ((ending.head?.map Token.kind).getD .endOfFile) = true

/-- A reader of parts that is good for the bodies inside of them, wherever fewer tokens are ahead than
a bound. -/
def Part.Deep (part : Part) (bound : Nat) (inner : Reader part.Value) : Prop :=
  ∀ cursor : Cursor, cursor.rest.length < bound →
    ∃ depth, cursor.rest.length ≤ depth ∧ inner cursor = part.readerAt (depth + 1) cursor

namespace Reader

/-- A run of tokens is read as a piece wherever it stands, and the faults are reported. -/
def Recovers : Piece → List Token → List Diagnostic → Prop
  | .one part, run, faults => ∀ depth (cursor : Cursor) ending, cursor.rest = run ++ ending →
      cursor.rest.length ≤ depth → part.Follows ending →
      Passes (part.readerAt (depth + 1)) cursor ending faults fun _ => True
  | .body part, run, faults => (∀ ending, part.Stops ending → part.Follows (run ++ ending)) ∧
      ∀ bound inner turns (cursor : Cursor) ending, part.Deep bound inner →
        cursor.rest = run ++ ending → cursor.rest.length < bound → cursor.rest.length ≤ turns →
        part.Stops ending →
        Passes (parts part.recovery inner turns) cursor ending faults fun _ => True
  | .block, run, faults => ∀ bound inner (cursor : Cursor) ending, Part.statement.Deep bound inner →
      cursor.rest = run ++ ending → cursor.rest.length ≤ bound →
      Passes (blockWith inner) cursor ending faults fun _ => True
  | .otherwise, run, faults => ∀ bound inner (cursor : Cursor) ending,
      Part.statement.Deep bound inner → cursor.rest = run ++ ending → cursor.rest.length ≤ bound →
      NoElse ending → Passes (elseWith inner) cursor ending faults fun _ => True
  | .classTail, run, faults => ∀ bound inner modifiers (cursor : Cursor) ending,
      Part.member.Deep bound inner → cursor.rest = run ++ ending → cursor.rest.length ≤ bound →
      Passes (classWith inner modifiers) cursor ending faults fun _ => True
  | .methodTail, run, faults => ∀ modifiers (cursor : Cursor) ending, cursor.rest = run ++ ending →
      Passes (method modifiers) cursor ending faults fun _ => True

variable {β : Type} {part : Part} {run rest ending : List Token} {fault : Diagnostic}
  {faults later : List Diagnostic} {cursor : Cursor} {bound turns depth : Nat}

theorem passes_braced {inner : Reader part.Value} (before behind : String) {opening closing : Token}
    (inside : Recovers (.body part) run faults) (brace : part.recovery.endsAtBrace = true)
    (opens : opening.kind = .punctuation .leftBrace) (closes : closing.kind = .punctuation .rightBrace)
    (deep : part.Deep bound inner) (ahead : cursor.rest = opening :: (run ++ [closing]) ++ ending)
    (within : cursor.rest.length ≤ bound) :
    Passes (braced part.recovery before behind inner) cursor ending faults fun _ => True := by
  rw [List.cons_append, List.append_assoc] at ahead
  refine (passes_expect before ahead opens (by simp)).quietly fun _ next left _ => ?_
  have stops : part.Stops ([closing] ++ ending) := by
    simp [Part.Stops, closes, Recovery.isEnd, brace]
  have shorter : next.rest.length < bound := by
    rw [ahead, List.length_cons] at within
    rw [left]
    omega
  refine passes_remaining ((inside.2 bound inner _ next _ deep left shorter (Nat.le_refl _)
    stops).finish fun _ last left _ => ?_)
  exact (passes_expect behind left closes (by simp)).quietly fun _ _ left _ => passes_pure left trivial

theorem follows_of_stops {part : Part} (stops : part.Stops ending) : part.Follows ending := by
  cases part with
  | statement =>
      intro otherwise
      rw [Part.Stops, otherwise] at stops
      cases stops
  | _ => trivial

theorem follows_append {part : Part} (follows : part.Follows run) (some : run ≠ [])
    (ending : List Token) : part.Follows (run ++ ending) := by
  obtain ⟨token, run, rfl⟩ := List.exists_cons_of_ne_nil some
  cases part with
  | statement => exact follows
  | _ => trivial

theorem isEnd_of_stops (stops : part.Stops ending) (ahead : cursor.rest = ending) :
    part.recovery.isEnd cursor.current.kind = true := by
  subst ahead
  rw [Part.Stops] at stops
  rw [← stops, Cursor.current]
  cases cursor.rest <;> rfl

theorem recovers_nothing (part : Part) : Recovers (.body part) [] [] := by
  refine ⟨fun ending stops => follows_of_stops stops, ?_⟩
  intro bound inner turns cursor ending _ ahead _ _ stops
  have read : parts part.recovery inner turns cursor = .value [] cursor := by
    cases turns with
    | zero => rfl
    | succ turns => exact parts_of_end (isEnd_of_stops stops ahead)
  obtain ⟨previous, tokens, reported⟩ := cursor
  subst ahead
  exact ⟨[], previous, read, trivial⟩

theorem recovers_part (first : Recovers (.one part) run faults)
    (others : Recovers (.body part) rest later) :
    Recovers (.body part) (run ++ rest) (faults ++ later) := by
  have opens : ∀ (cursor : Cursor) ending, part.Stops ending → cursor.rest = run ++ (rest ++ ending) →
      part.recovery.isEnd cursor.current.kind = false ∧ part.Follows cursor.rest := by
    intro cursor ending stops ahead
    obtain ⟨_, _, read, _⟩ :=
      first _ cursor _ ahead (Nat.le_refl _) (others.1 ending stops)
    exact Part.opens_of_value read
  refine ⟨fun ending stops => ?_, ?_⟩
  · rw [List.append_assoc]
    exact (opens ⟨none, _, []⟩ ending stops rfl).2
  · intro bound inner turns cursor ending deep ahead within enough stops
    rw [List.append_assoc] at ahead
    have more := (opens cursor ending stops ahead).1
    obtain ⟨depth, fits, same⟩ := deep cursor within
    obtain ⟨result, last, read, _⟩ := first depth cursor _ ahead fits (others.1 ending stops)
    have tracks : Tracks [] [] True (part.Follows []) (part.readerAt (depth + 1))
        (part.readerAt (depth + 1)) cursor := part.tracks_readerAt ⟨fits, Nat.add_le_add_right fits _⟩
    have shorter := tracks.shorter trivial _ _ read
    cases turns with
    | zero => exact absurd (Nat.lt_of_lt_of_le shorter enough) (Nat.not_lt_zero _)
    | succ turns =>
        have further := others.2 bound inner turns ⟨last, rest ++ ending, _⟩ ending deep rfl
          (Nat.lt_trans shorter within) (Nat.le_of_lt_succ (Nat.lt_of_lt_of_le shorter enough)) stops
        obtain ⟨values, stop, goes, _⟩ := further
        refine ⟨result :: values, stop, ?_, trivial⟩
        rw [parts_of_value more (same.trans read), bind_value goes, List.reverse_append,
          List.append_assoc]
        rfl

/-- Wherever the run stands as a part of a body, the part is refused with a fault and no other, and
reading goes on right behind the run. -/
structure Skipped (part : Part) (run : List Token) (fault : Diagnostic) : Prop where
  ne_nil : run ≠ []
  begun : part.Follows run
  more : ∀ (cursor : Cursor) ending, cursor.rest = run ++ ending →
    part.recovery.isEnd cursor.current.kind = false
  refused : ∀ depth (cursor : Cursor) ending, cursor.rest = run ++ ending →
    cursor.rest.length ≤ depth →
    ∃ next, part.readerAt (depth + 1) cursor = .failure fault next ∧
      ∃ place, next.resume part.recovery fault = ⟨place, ending, fault :: cursor.reported⟩

theorem skipped_of_refuses (refuses : Refuses part run fault) : Skipped part run fault :=
  ⟨refuses.ne_nil, refuses.begun, fun _ _ => refuses.isEnd_head,
    fun _ _ _ => failure_of_refuses refuses⟩

theorem recovers_skipped (first : Skipped part run fault)
    (others : Recovers (.body part) rest later) :
    Recovers (.body part) (run ++ rest) (fault :: later) := by
  refine ⟨fun ending _ => ?_, ?_⟩
  · rw [List.append_assoc]
    exact follows_append first.begun first.ne_nil _
  · intro bound inner turns cursor ending deep ahead within enough stops
    rw [List.append_assoc] at ahead
    obtain ⟨depth, fits, same⟩ := deep cursor within
    obtain ⟨next, read, place, resumed⟩ := first.refused depth cursor _ ahead fits
    have length := List.length_pos_iff.mpr first.ne_nil
    have total := congrArg List.length ahead
    rw [List.length_append] at total
    cases turns with
    | zero => omega
    | succ turns =>
        obtain ⟨values, stop, goes, _⟩ := others.2 bound inner turns
          ⟨place, rest ++ ending, fault :: cursor.reported⟩ ending deep rfl (by dsimp only; omega)
          (by dsimp only; omega) stops
        refine ⟨values, stop, ?_, trivial⟩
        rw [parts_of_failure (first.more cursor _ ahead) (same.trans read), resumed, goes,
          List.reverse_cons, List.append_assoc]
        rfl

theorem recovers_refused (first : Refuses part run fault)
    (others : Recovers (.body part) rest later) :
    Recovers (.body part) (run ++ rest) (fault :: later) :=
  recovers_skipped (skipped_of_refuses first) others

theorem recovers_block {opening closing : Token} (opens : opening.kind = .punctuation .leftBrace)
    (inside : Recovers (.body .statement) run faults)
    (closes : closing.kind = .punctuation .rightBrace) :
    Recovers .block (opening :: (run ++ [closing])) faults :=
  fun _ _ _ _ deep ahead within => passes_braced _ _ inside rfl opens closes deep ahead within

theorem recovers_classTail {name opening closing : Token} {text : String}
    (named : name.kind = .identifier text) (opens : opening.kind = .punctuation .leftBrace)
    (inside : Recovers (.body .member) run faults)
    (closes : closing.kind = .punctuation .rightBrace) :
    Recovers .classTail (name :: opening :: (run ++ [closing])) faults := by
  intro bound inner modifiers cursor ending deep ahead within
  refine (passes_identifier ahead named).quietly fun _ next left _ => ?_
  have shorter : next.rest.length ≤ bound := by
    rw [ahead] at within
    rw [left]
    exact Nat.le_of_succ_le within
  exact (passes_braced _ _ inside rfl opens closes deep left shorter).finish
    fun _ _ left _ => passes_pure left trivial

theorem deep_readerAt (part : Part) (depth : Nat) : part.Deep depth (part.readerAt depth) := by
  intro cursor fewer
  obtain ⟨depth, rfl⟩ := Nat.exists_eq_add_one.mpr (Nat.zero_lt_of_lt fewer)
  exact ⟨depth, Nat.le_of_lt_succ fewer, rfl⟩

theorem deep_reader (part : Part) (bound : Nat) : part.Deep bound part.reader :=
  fun cursor _ => ⟨cursor.rest.length, Nat.le_refl _, part.reader_eq cursor⟩

theorem passes_block (inside : Recovers .block run faults) (ahead : cursor.rest = run ++ ending) :
    Passes Reader.block cursor ending faults fun _ => True :=
  inside _ _ cursor ending (deep_reader .statement _) ahead (Nat.le_refl _)

theorem recovers_methodTail {name opening : Token} {given written : List Token} {text : String}
    {params : List Param} {type : Option TypeRef} (named : name.kind = .identifier text)
    (taken : Accepts Reader.params given [] params)
    (typed : Accepts typeAfterColon written [opening] type)
    (inside : Recovers .block (opening :: run) faults) :
    Recovers .methodTail (name :: (given ++ (written ++ opening :: run))) faults := by
  intro modifiers cursor ending ahead
  simp only [List.cons_append, List.append_assoc] at ahead
  refine (passes_identifier ahead named).quietly fun _ next left _ => ?_
  refine (passes_accepted taken (fun _ _ _ => tracks_params) (fun _ _ => unplaced_params)
    (fun _ => trivial) left).quietly fun _ next left _ => ?_
  refine (passes_accepted typed (fun _ _ _ => tracks_typeAfterColon)
    (fun _ _ => unplaced_typeAfterColon) (by simp) left).quietly
    fun _ next left _ => passes_previousSpan fun _ => ?_
  exact (passes_block inside left).finish fun _ _ left _ => passes_pure left trivial

variable {word opening : Token} {front tail given test : List Token} {found : Modifiers}

/-- A member or a declaration, from what stands in front of its word on. -/
theorem passes_front {following : Modifiers → Reader β} (before : Accepts modifiers front [word] found)
    (ahead : cursor.rest = front ++ word :: tail ++ ending)
    (goes : ∀ next : Cursor, next.rest = word :: (tail ++ ending) →
      next.rest.length ≤ cursor.rest.length →
      Passes (following found) next ending faults fun _ => True) :
    Passes (modifiers >>= following) cursor ending faults fun _ => True := by
  rw [List.append_assoc] at ahead
  refine (passes_accepted before (fun _ _ _ => tracks_modifiers) (fun _ _ => unplaced_modifiers)
    (by simp) ahead).quietly fun modifiers next left same => ?_
  subst same
  refine goes next left ?_
  rw [left, ahead]
  exact (List.suffix_append ..).length_le

theorem passes_word {following : Unit → Reader β} (more : word.kind ≠ .endOfFile)
    (ahead : cursor.rest = word :: tail)
    (goes : ∀ next : Cursor, next.rest = tail → next.rest.length < cursor.rest.length →
      Passes (following ()) next ending faults fun _ => True) :
    Passes (advance >>= following) cursor ending faults fun _ => True := by
  refine (passes_advance ahead more).quietly fun _ next left _ => goes next left ?_
  rw [left, ahead]
  exact Nat.lt_succ_self _

theorem passes_placed {reader : Reader β} {α : Type} {change : Span → β → α} (start : Nat)
    (inside : Passes reader cursor ending faults fun _ => True) :
    Passes (reader >>= fun result => spanFrom start >>= fun span => pure (change span result)) cursor
      ending faults fun _ => True :=
  inside.finish fun _ _ left _ => passes_spanFrom _ fun _ => passes_pure left trivial

theorem recovers_nested (before : Accepts modifiers front [word] found)
    (keyword : word.kind = .keyword .classWord) (inside : Recovers .classTail tail faults) :
    Recovers (.one .member) (front ++ word :: tail) faults := by
  intro depth cursor ending ahead enough _
  refine passes_front before ahead fun next left shorter => passes_currentKind left keyword ?_
  refine passes_word (by simp [keyword]) left fun next left further => ?_
  exact passes_placed _ (inside depth _ _ next ending (deep_readerAt .member depth) left (by omega))

theorem recovers_method (before : Accepts modifiers front [word] found)
    (keyword : word.kind = .keyword .fnWord) (inside : Recovers .methodTail tail faults) :
    Recovers (.one .member) (front ++ word :: tail) faults := by
  intro depth cursor ending ahead _ _
  refine passes_front before ahead fun next left _ => passes_currentKind left keyword ?_
  refine passes_word (by simp [keyword]) left fun next left _ => ?_
  exact passes_placed _ (inside _ next ending left)

theorem recovers_constructor {params : List Param} (before : Accepts modifiers front [word] found)
    (keyword : word.kind = .keyword .newWord) (taken : Accepts Reader.params given [] params)
    (inside : Recovers .block run faults) :
    Recovers (.one .member) (front ++ word :: (given ++ run)) faults := by
  intro depth cursor ending ahead _ _
  refine passes_front before ahead fun next left _ => passes_currentKind left keyword ?_
  refine passes_word (by simp [keyword]) left fun next left _ => passes_placed _ ?_
  rw [List.append_assoc] at left
  refine (passes_accepted taken (fun _ _ _ => tracks_params) (fun _ _ => unplaced_params)
    (fun _ => trivial) left).quietly fun _ next left _ => ?_
  exact (passes_block inside left).finish fun _ _ left _ => passes_pure left trivial

theorem recovers_initializer (before : Accepts modifiers front [word] found)
    (untagged : found.tags = []) (keyword : word.kind = .keyword .initWord)
    (inside : Recovers .block run faults) :
    Recovers (.one .member) (front ++ word :: run) faults := by
  intro depth cursor ending ahead _ _
  refine passes_front before ahead fun next left _ => passes_currentKind left keyword ?_
  have free : Passes (withoutTags "initializers" found) next next.rest [] fun _ => True := by
    rw [withoutTags, untagged]
    exact passes_pure rfl trivial
  refine free.quietly fun _ later same _ => ?_
  refine passes_word (by simp [keyword]) (same.trans left) fun next left _ => ?_
  exact passes_placed _ (passes_block inside left)

theorem recovers_type (before : Accepts modifiers front [word] found)
    (keyword : word.kind = .keyword .classWord) (inside : Recovers .classTail tail faults) :
    Recovers (.one .declaration) (front ++ word :: tail) faults := by
  intro depth cursor ending ahead _ _
  refine passes_front before ahead fun next left _ => passes_currentKind left keyword ?_
  refine passes_word (by simp [keyword]) left fun next left _ => ?_
  exact passes_placed _ (inside _ _ _ next ending (deep_reader .member _) left (Nat.le_refl _))

theorem recovers_function (before : Accepts modifiers front [word] found)
    (keyword : word.kind = .keyword .fnWord) (inside : Recovers .methodTail tail faults) :
    Recovers (.one .declaration) (front ++ word :: tail) faults := by
  intro depth cursor ending ahead _ _
  refine passes_front before ahead fun next left _ => passes_currentKind left keyword ?_
  refine passes_word (by simp [keyword]) left fun next left _ => ?_
  exact passes_placed _ (inside _ next ending left)

theorem passes_test {condition : Expr} {following : Expr → Reader β}
    (tested : Accepts expression test [opening] condition)
    (ahead : cursor.rest = test ++ (opening :: tail))
    (goes : ∀ next : Cursor, next.rest = opening :: tail → next.rest.length ≤ cursor.rest.length →
      Passes (following condition) next ending faults fun _ => True) :
    Passes (expression >>= following) cursor ending faults fun _ => True := by
  refine (passes_accepted tested (fun _ _ _ => tracks_expression) (fun _ _ => unplaced_expression)
    (by simp) ahead).quietly fun condition next left same => ?_
  subst same
  refine goes next left ?_
  rw [left, ahead]
  exact (List.suffix_append ..).length_le

theorem recovers_choose {condition : Expr} (keyword : word.kind = .keyword .ifWord)
    (tested : Accepts expression test [opening] condition)
    (inside : Recovers .block (opening :: run) faults) (others : Recovers .otherwise rest later) :
    Recovers (.one .statement) (word :: (test ++ (opening :: run ++ rest))) (faults ++ later) := by
  intro depth cursor ending ahead enough follows
  simp only [List.cons_append, List.append_assoc] at ahead
  have deep := deep_readerAt .statement depth
  refine passes_current ahead ?_
  rw [keyword]
  refine passes_word (by simp [keyword]) ahead fun next left shorter => ?_
  refine passes_test tested left fun next left further => ?_
  refine (inside depth _ next (rest ++ ending) deep left (by omega)).bind fun _ next left _ => ?_
  have length := congrArg List.length ahead
  simp only [List.length_cons, List.length_append] at length
  refine passes_placed _ (others depth _ next ending deep left ?_ follows)
  rw [left, List.length_append]
  omega

theorem recovers_repeatWhile {condition : Expr} (keyword : word.kind = .keyword .whileWord)
    (tested : Accepts expression test [opening] condition)
    (inside : Recovers .block (opening :: run) faults) :
    Recovers (.one .statement) (word :: (test ++ opening :: run)) faults := by
  intro depth cursor ending ahead enough _
  simp only [List.cons_append, List.append_assoc] at ahead
  refine passes_current ahead ?_
  rw [keyword]
  refine passes_word (by simp [keyword]) ahead fun next left shorter => ?_
  refine passes_test tested left fun next left further => ?_
  exact passes_placed _ (inside depth _ next ending (deep_readerAt .statement depth) left (by omega))

theorem recovers_withoutElse : Recovers .otherwise [] [] := by
  intro bound inner cursor ending _ ahead _ follows
  refine passes_decline (fun word => follows ?_) (passes_pure ahead trivial)
  rw [List.nil_append] at ahead
  rw [Cursor.current, ahead] at word
  cases ending with
  | nil => cases word
  | cons token ending => exact congrArg some word

theorem recovers_elseBlock (keyword : word.kind = .keyword .elseWord)
    (opens : opening.kind = .punctuation .leftBrace)
    (inside : Recovers .block (opening :: run) faults) :
    Recovers .otherwise (word :: opening :: run) faults := by
  intro bound inner cursor ending deep ahead within _
  refine passes_accept ahead keyword (by simp) fun next left => passes_isNext ?_
  rw [Cursor.current_eq left, opens, if_neg (by simp)]
  have shorter : next.rest.length ≤ bound := by
    rw [ahead] at within
    rw [left]
    exact Nat.le_of_succ_le within
  exact (inside bound inner next ending deep left shorter).finish
    fun _ _ left _ => passes_pure left trivial

theorem recovers_elseIf {again : Token} (keyword : word.kind = .keyword .elseWord)
    (chained : again.kind = .keyword .ifWord)
    (inside : Recovers (.one .statement) (again :: run) faults) :
    Recovers .otherwise (word :: again :: run) faults := by
  intro bound inner cursor ending deep ahead within follows
  refine passes_accept ahead keyword (by simp) fun next left => passes_isNext ?_
  rw [Cursor.current_eq left, chained, if_pos (by simp)]
  have shorter : next.rest.length < bound := by
    rw [ahead] at within
    rw [left]
    exact within
  obtain ⟨depth, fits, same⟩ := deep next shorter
  have passes : Passes inner next ending faults fun _ => True := by
    rw [Passes, same]
    exact inside depth next ending left fits follows
  exact passes.finish fun _ _ left _ => passes_pure left trivial

end Reader

open Reader in
/-- Where everything but refused segments can be read, reading goes on behind each of them. -/
theorem Flawed.recovers {piece : Piece} {run : List Token} {faults : List Diagnostic}
    (flawed : Flawed piece run faults) : Recovers piece run faults := by
  induction flawed with
  | accepted read => exact fun _ _ _ ahead enough follows => passes_part read ahead enough follows
  | nothing part => exact recovers_nothing part
  | part _ _ first others => exact recovers_part first others
  | refused first _ others => exact recovers_refused first others
  | block opens _ closes inside => exact recovers_block opens inside closes
  | classTail named opens _ closes inside => exact recovers_classTail named opens inside closes
  | methodTail named taken typed _ inside => exact recovers_methodTail named taken typed inside
  | nested before keyword _ inside => exact recovers_nested before keyword inside
  | method before keyword _ inside => exact recovers_method before keyword inside
  | constructor before keyword taken _ inside => exact recovers_constructor before keyword taken inside
  | initializer before untagged keyword _ inside =>
      exact recovers_initializer before untagged keyword inside
  | type before keyword _ inside => exact recovers_type before keyword inside
  | function before keyword _ inside => exact recovers_function before keyword inside
  | choose keyword tested _ _ inside others => exact recovers_choose keyword tested inside others
  | repeatWhile keyword tested _ inside => exact recovers_repeatWhile keyword tested inside
  | withoutElse => exact recovers_withoutElse
  | elseBlock keyword opens _ inside => exact recovers_elseBlock keyword opens inside
  | elseIf keyword chained _ inside => exact recovers_elseIf keyword chained inside

end Grammar

namespace Program

open Grammar Grammar.Reader

/-- What is reported for a program is what is reported for its body. -/
theorem ofTokens_of_recovers {run : List Token} {faults : List Diagnostic} {finish : Token}
    (recovers : Recovers (.body .declaration) run faults) (last : finish.kind = .endOfFile) :
    (faults = [] → ∃ program, ofTokens (run ++ [finish]) = .ok program) ∧
      (faults ≠ [] → ofTokens (run ++ [finish]) = .error faults) := by
  have stops : Part.declaration.Stops [finish] := by simp [Part.Stops, last, Recovery.isEnd]
  obtain ⟨declarations, stop, read, _⟩ := recovers.2 ((run ++ [finish]).length + 1) declaration
    _ (.ofTokens (run ++ [finish])) [finish] (deep_reader .declaration _) rfl (Nat.lt_succ_self _)
    (Nat.le_refl _) stops
  have read : Reader.declarations (.ofTokens (run ++ [finish])) =
      .value declarations ⟨stop, [finish], faults.reverse⟩ := by
    rw [← List.append_nil faults.reverse]
    exact read
  constructor
  · rintro rfl
    exact ⟨⟨declarations⟩, by rw [ofTokens, read]; rfl⟩
  · intro some
    cases reported : faults.reverse with
    | nil => exact absurd (List.reverse_eq_nil_iff.mp reported) some
    | cons fault others =>
        rw [reported] at read
        rw [ofTokens, read, ← List.reverse_reverse faults, reported]

/-- Where everything but refused segments of bodies can be read, at any depth, the faults reported are
exactly those of these segments, one for each, in the order of the source; without such segments
there is a program. -/
theorem ofTokens_flawed {run : List Token} {faults : List Diagnostic} {finish : Token}
    (flawed : Flawed (.body .declaration) run faults) (last : finish.kind = .endOfFile) :
    (faults = [] → ∃ program, ofTokens (run ++ [finish]) = .ok program) ∧
      (faults ≠ [] → ofTokens (run ++ [finish]) = .error faults) :=
  ofTokens_of_recovers flawed.recovers last

/-- A class with a field that has a stray word behind it, and with a method that has a stray number
behind the expression it evaluates. -/
theorem ofTokens_flawed_class :
    let token (kind : TokenKind) : Token := ⟨kind, .origin⟩
    let semicolon := token (.punctuation .semicolon)
    let opening := token (.punctuation .leftBrace)
    let closing := token (.punctuation .rightBrace)
    let field := [token (.identifier "x"), token (.identifier "y"), semicolon]
    let statement := [token (.int 1), token (.int 2), semicolon]
    let method := [token (.keyword .fnWord), token (.identifier "f"), token (.punctuation .leftParen),
      token (.punctuation .rightParen), opening] ++ statement ++ [closing]
    ofTokens ([token (.keyword .classWord), token (.identifier "A"), opening] ++ field ++ method ++
        [closing, token .endOfFile]) =
      .error [.syntaxFault "Expected ';' after field, found identifier 'y'" .origin,
        .syntaxFault "Expected ';' after expression, found integer 2" .origin] := by
  intro token semicolon opening closing field statement method
  have refusedField : Refuses .member field
      (.syntaxFault "Expected ';' after field, found identifier 'y'" .origin) := by
    refine ⟨⟨[token (.identifier "x"), token (.identifier "y")], semicolon, rfl, rfl, ?_⟩, trivial,
      [token (.identifier "x")], token (.identifier "y"), [semicolon], none, [], [], _, rfl, rfl, rfl, ?_⟩
    · simp [token, Token.Inner]
    · simp [semicolon, token, Recovery.isRestart]
  have refusedStatement : Refuses .statement statement
      (.syntaxFault "Expected ';' after expression, found integer 2" .origin) := by
    refine ⟨⟨[token (.int 1), token (.int 2)], semicolon, rfl, rfl, ?_⟩, ?_,
      [token (.int 1)], token (.int 2), [semicolon], none, [], [], _, rfl, rfl, rfl, ?_⟩
    · simp [token, Token.Inner]
    · simp [Part.Follows, NoElse, statement, token]
    · simp [semicolon, token, Recovery.isRestart]
  have block : Flawed .block (opening :: (statement ++ [] ++ [closing])) _ :=
    .block rfl (.refused refusedStatement (.nothing .statement)) rfl
  have methodTail : Flawed .methodTail (token (.identifier "f") ::
      ([token (.punctuation .leftParen), token (.punctuation .rightParen)] ++ ([] ++
        opening :: (statement ++ [] ++ [closing])))) _ :=
    .methodTail rfl ⟨none, [], [], _, rfl⟩ ⟨none, [], [], _, rfl⟩ block
  have member : Flawed (.one .member) ([] ++ method) _ :=
    .method ⟨none, [], [], _, rfl⟩ rfl methodTail
  have type : Flawed (.one .declaration) ([] ++ token (.keyword .classWord) ::
      token (.identifier "A") :: opening :: (field ++ (method ++ []) ++ [closing])) _ :=
    .type ⟨none, [], [], _, rfl⟩ rfl
      (.classTail rfl rfl (.refused refusedField (.part member (.nothing .member))) rfl)
  have last : (token .endOfFile).kind = .endOfFile := rfl
  exact (ofTokens_flawed (.part type (.nothing .declaration)) last).2 (by simp)

end Program

end DataClass
