import DataClass.Proofs.Program.Extent
import DataClass.Token.Basic
namespace DataClass

namespace Token

/-- Tokens one behind the other. -/
structure Ordered (tokens : List Token) : Prop where
  forward : ∀ token ∈ tokens, token.span.start ≤ token.span.stop
  apart : tokens.Pairwise fun token next => token.span.stop ≤ next.span.start

/-- The range from the token with the index `first` up to the one in front of the index `stop`. -/
structure Spans (tokens : List Token) (first stop : Nat) (span : Span) : Prop where
  filled : first < stop
  start : tokens[first]?.map (·.span.start) = some span.start
  stop : tokens[stop - 1]?.map (·.span.stop) = some span.stop

/-- The token with this index, if there is one, begins at the offset. -/
def Begins (tokens : List Token) (first start : Nat) : Prop :=
  ∀ token, tokens[first]? = some token → token.span.start = start

variable {tokens : List Token} {first middle later stop : Nat} {span left right : Span}

theorem begins_of_only {token : Token} (only : ∀ other, tokens[first]? = some other → other = token) :
    Begins tokens first token.span.start := fun other found => by rw [only other found]

theorem Spans.begins (spans : Spans tokens first stop span) : Begins tokens first span.start := by
  intro token found
  have same := spans.start
  rw [found] at same
  exact Option.some.inj same

theorem spans_token {token : Token} (found : tokens[first]? = some token) :
    Spans tokens first (first + 1) token.span :=
  ⟨Nat.lt_succ_self _, by rw [found]; rfl, by rw [Nat.add_sub_cancel, found]; rfl⟩

/-- The range of all of some tokens goes from the first to the last of them. -/
theorem Spans.ends {before run after : List Token}
    (spans : Spans (before ++ (run ++ after)) before.length (before.length + run.length) span) :
    run.head?.map (·.span.start) = some span.start ∧
      run.getLast?.map (·.span.stop) = some span.stop := by
  obtain ⟨filled, start, stop⟩ := spans
  have some : 0 < run.length := by omega
  rw [List.getElem?_append_right (Nat.le_refl _), List.getElem?_append_left (by omega), Nat.sub_self,
    ← List.head?_eq_getElem?] at start
  rw [List.getElem?_append_right (by omega), List.getElem?_append_left (by omega),
    show before.length + run.length - 1 - before.length = run.length - 1 by omega,
    ← List.getLast?_eq_getElem?] at stop
  exact ⟨start, stop⟩

theorem Spans.within (spans : Spans tokens first stop span) : stop ≤ tokens.length := by
  obtain ⟨token, found, _⟩ := Option.map_eq_some_iff.mp spans.stop
  have := (List.getElem?_eq_some_iff.mp found).1
  have := spans.filled
  omega

/-- From the beginning of one range to the end of another one behind it. -/
theorem Spans.reach (before : Spans tokens first middle left) (behind : Spans tokens later stop right)
    (onward : middle ≤ later) : Spans tokens first stop ⟨left.start, right.stop⟩ := by
  have := before.filled
  have := behind.filled
  exact ⟨by omega, before.start, behind.stop⟩

theorem Ordered.stop_le_start (ordered : Ordered tokens) {one two : Token} {first later : Nat}
    (before : tokens[first]? = some one) (behind : tokens[later]? = some two) (onward : first < later) :
    one.span.stop ≤ two.span.start := by
  obtain ⟨within, rfl⟩ := List.getElem?_eq_some_iff.mp before
  obtain ⟨within', rfl⟩ := List.getElem?_eq_some_iff.mp behind
  exact List.pairwise_iff_getElem.mp ordered.apart _ _ within within' onward

theorem Ordered.start_le_stop (ordered : Ordered tokens) {one two : Token} {first later : Nat}
    (before : tokens[first]? = some one) (behind : tokens[later]? = some two) (onward : first ≤ later) :
    one.span.start ≤ two.span.stop := by
  have here := ordered.forward one (List.mem_of_getElem? before)
  have there := ordered.forward two (List.mem_of_getElem? behind)
  rcases Nat.lt_or_eq_of_le onward with before' | rfl
  · have := ordered.stop_le_start before behind before'
    omega
  · obtain rfl := Option.some.inj (before.symm.trans behind)
    exact here

/-- Ranges of tokens that are one behind the other are so too. -/
theorem Spans.apart (before : Spans tokens first middle left) (behind : Spans tokens later stop right)
    (ordered : Ordered tokens) (onward : middle ≤ later) : left.stop ≤ right.start := by
  obtain ⟨one, found, same⟩ := Option.map_eq_some_iff.mp before.stop
  obtain ⟨two, found', same'⟩ := Option.map_eq_some_iff.mp behind.start
  have := before.filled
  rw [← same, ← same']
  exact ordered.stop_le_start found found' (by omega)

theorem Spans.forward (spans : Spans tokens first stop span) (ordered : Ordered tokens) :
    span.start ≤ span.stop := by
  obtain ⟨one, found, same⟩ := Option.map_eq_some_iff.mp spans.start
  obtain ⟨two, found', same'⟩ := Option.map_eq_some_iff.mp spans.stop
  have := spans.filled
  rw [← same, ← same']
  exact ordered.start_le_stop found found' (by omega)

theorem Spans.merge (before : Spans tokens first middle left) (behind : Spans tokens later stop right)
    (ordered : Ordered tokens) (onward : middle ≤ later) : Spans tokens first stop (left.merge right) := by
  have apart := before.apart behind ordered onward
  have forward := before.forward ordered
  have forward' := behind.forward ordered
  have whole : left.merge right = ⟨left.start, right.stop⟩ := by
    rw [Span.merge, Nat.min_eq_left (by omega), Nat.max_eq_right (by omega)]
  rw [whole]
  exact before.reach behind onward

theorem Spans.start_le (outer : Spans tokens first stop left) {first' stop' : Nat}
    (inner : Spans tokens first' stop' right) (ordered : Ordered tokens) (onward : first ≤ first') :
    left.start ≤ right.start := by
  obtain ⟨one, found, same⟩ := Option.map_eq_some_iff.mp outer.start
  obtain ⟨two, found', same'⟩ := Option.map_eq_some_iff.mp inner.start
  rw [← same, ← same']
  rcases Nat.lt_or_eq_of_le onward with before | rfl
  · exact Nat.le_trans (ordered.forward one (List.mem_of_getElem? found))
      (ordered.stop_le_start found found' before)
  · exact Nat.le_of_eq (congrArg (·.span.start) (Option.some.inj (found.symm.trans found')))

theorem Spans.stop_le (outer : Spans tokens first stop left) {first' stop' : Nat}
    (inner : Spans tokens first' stop' right) (ordered : Ordered tokens) (onward : stop' ≤ stop) :
    right.stop ≤ left.stop := by
  obtain ⟨one, found, same⟩ := Option.map_eq_some_iff.mp inner.stop
  obtain ⟨two, found', same'⟩ := Option.map_eq_some_iff.mp outer.stop
  have := inner.filled
  rw [← same, ← same']
  rcases Nat.lt_or_eq_of_le onward with before | rfl
  · exact Nat.le_trans (ordered.stop_le_start found found' (by omega))
      (ordered.forward two (List.mem_of_getElem? found'))
  · exact Nat.le_of_eq (congrArg (·.span.stop) (Option.some.inj (found.symm.trans found')))

end Token

namespace Extent

open Token (Spans)

mutual

/-- The part stands on the tokens from the index `first` up to the index `stop`, and the parts inside
of it on some of these, one behind the other. -/
inductive Laid (tokens : List Token) : Nat → Nat → Extent → Prop where
  | node {first stop : Nat} {span : Span} {inside : List Extent} (spans : Spans tokens first stop span)
      (parts : LaidAll tokens first stop inside) : Laid tokens first stop (.node span inside)

inductive LaidAll (tokens : List Token) : Nat → Nat → List Extent → Prop where
  | nil {first stop : Nat} (onward : first ≤ stop) : LaidAll tokens first stop []
  | cons {first start middle stop : Nat} {extent : Extent} {rest : List Extent} (onward : first ≤ start)
      (here : Laid tokens start middle extent) (behind : LaidAll tokens middle stop rest) :
      LaidAll tokens first stop (extent :: rest)

end

variable {tokens : List Token} {first middle stop : Nat} {extent : Extent} {inside rest : List Extent}
  {span : Span}

theorem Laid.spans (laid : Laid tokens first stop extent) : Spans tokens first stop extent.span := by
  cases laid with
  | node spans _ => exact spans

theorem Laid.onward (laid : Laid tokens first stop extent) : first ≤ stop :=
  Nat.le_of_lt laid.spans.filled

theorem Laid.leaf (spans : Spans tokens first stop span) : Laid tokens first stop (.node span []) :=
  .node spans (.nil (Nat.le_of_lt spans.filled))

theorem LaidAll.onward (laid : LaidAll tokens first stop inside) : first ≤ stop := by
  induction inside generalizing first with
  | nil =>
      cases laid with
      | nil onward => exact onward
  | cons extent rest ih =>
      cases laid with
      | cons onward here behind => exact Nat.le_trans onward (Nat.le_trans here.onward (ih behind))

theorem LaidAll.widen (laid : LaidAll tokens first stop inside) {first' stop' : Nat}
    (sooner : first' ≤ first) (later : stop ≤ stop') : LaidAll tokens first' stop' inside := by
  induction inside generalizing first first' with
  | nil => exact .nil (Nat.le_trans sooner (Nat.le_trans laid.onward later))
  | cons extent rest ih =>
      cases laid with
      | cons onward here behind =>
          exact .cons (Nat.le_trans sooner onward) here (ih behind (Nat.le_refl _))

theorem LaidAll.append (before : LaidAll tokens first middle inside)
    (behind : LaidAll tokens middle stop rest) : LaidAll tokens first stop (inside ++ rest) := by
  induction inside generalizing first with
  | nil => exact behind.widen before.onward (Nat.le_refl _)
  | cons extent inside ih =>
      cases before with
      | cons onward here more => exact .cons onward here (ih more)

theorem Laid.one (laid : Laid tokens first stop extent) : LaidAll tokens first stop [extent] :=
  .cons (Nat.le_refl _) laid (.nil (Nat.le_refl _))

theorem LaidAll.exists_laid (laid : LaidAll tokens first stop inside) :
    ∀ extent ∈ inside, ∃ start finish, first ≤ start ∧ Laid tokens start finish extent ∧ finish ≤ stop := by
  induction inside generalizing first with
  | nil => exact nofun
  | cons head rest ih =>
      cases laid with
      | cons onward here behind =>
          refine List.forall_mem_cons.mpr ⟨⟨_, _, onward, here, behind.onward⟩, fun extent among => ?_⟩
          obtain ⟨start, finish, further, there, within⟩ := ih behind extent among
          exact ⟨start, finish, Nat.le_trans onward (Nat.le_trans here.onward further), there, within⟩

theorem LaidAll.apart (laid : LaidAll tokens first stop inside) (ordered : Token.Ordered tokens) :
    inside.Pairwise fun extent next => extent.span.stop ≤ next.span.start := by
  induction inside generalizing first with
  | nil => exact .nil
  | cons head rest ih =>
      cases laid with
      | cons _ here behind =>
          refine List.pairwise_cons.mpr ⟨fun next among => ?_, ih behind⟩
          obtain ⟨start, finish, onward, there, _⟩ := behind.exists_laid next among
          exact here.spans.apart there.spans ordered onward

mutual

/-- Every part, however deep inside, stands on tokens of its own. -/
theorem Laid.exists_nodes {first stop : Nat} : (extent : Extent) → Laid tokens first stop extent →
    ∀ part ∈ extent.nodes, ∃ start finish, Laid tokens start finish part
  | .node span inside, laid, part, among => by
      rcases List.mem_cons.mp among with rfl | deeper
      · exact ⟨first, stop, laid⟩
      · cases laid with
        | node _ parts => exact LaidAll.exists_nodes inside parts part deeper

theorem LaidAll.exists_nodes {first stop : Nat} : (extents : List Extent) →
    LaidAll tokens first stop extents →
    ∀ part ∈ nodesAll extents, ∃ start finish, Laid tokens start finish part
  | [], _, _, among => nomatch among
  | extent :: rest, laid, part, among => by
      cases laid with
      | cons _ here behind =>
          rcases List.mem_append.mp among with inside | later
          · exact Laid.exists_nodes extent here part inside
          · exact LaidAll.exists_nodes rest behind part later

end

/-- A part of a text with these tokens is exactly as wide as its tokens, the parts directly inside of it
are within, and one behind the other. -/
structure Exact (tokens : List Token) (size : Nat) (part : Extent) : Prop where
  start : ∃ token ∈ tokens, part.span.start = token.span.start
  stop : ∃ token ∈ tokens, part.span.stop = token.span.stop
  forward : part.span.start ≤ part.span.stop
  within : part.span.stop ≤ size
  holds : ∀ child ∈ part.inside, part.span.start ≤ child.span.start ∧ child.span.stop ≤ part.span.stop
  apart : part.inside.Pairwise fun child next => child.span.stop ≤ next.span.start

theorem Laid.exact (laid : Laid tokens first stop extent) (ordered : Token.Ordered tokens) {size : Nat}
    (within : ∀ token ∈ tokens, token.span.stop ≤ size) : Exact tokens size extent := by
  obtain ⟨opening, found, begins⟩ := Option.map_eq_some_iff.mp laid.spans.start
  obtain ⟨closing, found', ends⟩ := Option.map_eq_some_iff.mp laid.spans.stop
  cases laid with
  | node spans parts =>
      exact {
        start := ⟨opening, List.mem_of_getElem? found, begins.symm⟩
        stop := ⟨closing, List.mem_of_getElem? found', ends.symm⟩
        forward := spans.forward ordered
        within := ends ▸ within closing (List.mem_of_getElem? found')
        holds := fun child among => by
          obtain ⟨start, finish, onward, there, before⟩ := parts.exists_laid child among
          exact ⟨spans.start_le there.spans ordered onward, spans.stop_le there.spans ordered before⟩
        apart := parts.apart ordered }

end Extent

end DataClass
