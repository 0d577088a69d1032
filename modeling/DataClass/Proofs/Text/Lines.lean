import DataClass.Text.Line
import Mathlib.Data.List.Basic
namespace DataClass

/-! The lines of two texts against each other. A line that one of the texts does not have is taken for
an empty one, so line breaks at the end of a text do not show, and neither does whether a line ends
with or without a carriage return. -/

variable {number : Nat} {chars olds news : List Char} {oldLines newLines : List (List Char)}

/-- The text with a mere line feed at the end of each line. -/
def withoutReturns : List Char → List Char
  | [] => []
  | '\r' :: '\n' :: rest => '\n' :: withoutReturns rest
  | char :: rest => char :: withoutReturns rest

theorem withoutReturns_cons {char : Char} {rest : List Char}
    (other : ∀ later, char = '\r' → rest = '\n' :: later → False) :
    withoutReturns (char :: rest) = char :: withoutReturns rest :=
  withoutReturns.eq_3 char rest other

/-- What a comparison of lines sees of a text. -/
def bareText (chars : List Char) : List Char := dropTrailing (· == '\n') (withoutReturns chars)

/-! ### Lines by number -/

/-- The line with a number, counted from zero. There are empty lines behind the last one. -/
def lineAt (lines : List (List Char)) (index : Nat) : List Char := lines.getD index []

@[simp] theorem lineAt_nil (index : Nat) : lineAt [] index = [] := rfl

@[simp] theorem lineAt_cons_zero (line : List Char) (lines : List (List Char)) :
    lineAt (line :: lines) 0 = line := rfl

@[simp] theorem lineAt_cons_succ (line : List Char) (lines : List (List Char)) (index : Nat) :
    lineAt (line :: lines) (index + 1) = lineAt lines index := rfl

/-- There are the same lines under all numbers. -/
def SameLines (lines others : List (List Char)) : Prop :=
  ∀ index, lineAt lines index = lineAt others index

theorem sameLines_comm {lines others : List (List Char)} :
    SameLines lines others ↔ SameLines others lines := forall_congr' fun _ => eq_comm

theorem sameLines_cons_iff {line other : List Char} {lines others : List (List Char)} :
    SameLines (line :: lines) (other :: others) ↔ line = other ∧ SameLines lines others :=
  ⟨fun same => ⟨same 0, fun index => same (index + 1)⟩, fun ⟨first, later⟩ index =>
    match index with
    | 0 => first
    | index + 1 => later index⟩

theorem sameLines_nil_cons_iff {other : List Char} {others : List (List Char)} :
    SameLines [] (other :: others) ↔ other = [] ∧ SameLines [] others :=
  ⟨fun same => ⟨(same 0).symm, fun index => same (index + 1)⟩, fun ⟨first, later⟩ index =>
    match index with
    | 0 => first.symm
    | index + 1 => later index⟩

/-! ### The lines of a text -/

theorem pieces_newline (rest : List Char) : pieces ('\n' :: rest) = [] :: pieces rest := rfl

theorem pieces_ne_nil (chars : List Char) : pieces chars ≠ [] := by
  fun_cases pieces chars <;> exact List.cons_ne_nil _ _

theorem pieces_cons {char : Char} (other : char ≠ '\n') (rest : List Char) :
    ∃ first later, pieces rest = first :: later ∧ pieces (char :: rest) = (char :: first) :: later := by
  obtain ⟨first, later, cut⟩ := List.exists_cons_of_ne_nil (pieces_ne_nil rest)
  exact ⟨first, later, cut, by rw [pieces, if_neg other, cut]⟩

/-- Cutting a text into lines loses the carriage returns in front of line feeds. -/
theorem sameLines_linesOf (chars : List Char) :
    SameLines (linesOf chars) (pieces (withoutReturns chars)) := by
  fun_induction linesOf chars with
  | case1 => exact sameLines_nil_cons_iff.mpr ⟨rfl, fun _ => rfl⟩
  | case2 rest ih => exact sameLines_cons_iff.mpr ⟨rfl, ih⟩
  | case3 rest ih => exact sameLines_cons_iff.mpr ⟨rfl, ih⟩
  | case4 char rest feed returns none ih =>
      rw [withoutReturns_cons returns]
      obtain ⟨first, later, cut, next⟩ := pieces_cons feed (withoutReturns rest)
      rw [none, cut, sameLines_nil_cons_iff] at ih
      rw [next]
      exact sameLines_cons_iff.mpr ⟨by rw [ih.1], ih.2⟩
  | case5 char rest feed returns line lines some ih =>
      rw [withoutReturns_cons returns]
      obtain ⟨first, later, cut, next⟩ := pieces_cons feed (withoutReturns rest)
      rw [some, cut, sameLines_cons_iff] at ih
      rw [next]
      exact sameLines_cons_iff.mpr ⟨by rw [ih.1], ih.2⟩

/-! ### Line feeds at the end -/

/-- What is left of a text without the line feeds at its end. -/
abbrev dropFeeds (chars : List Char) : List Char := dropTrailing (· == '\n') chars

theorem dropFeeds_cons (head : Char) (tail : List Char) :
    dropFeeds (head :: tail) =
      if dropFeeds tail = [] ∧ head = '\n' then [] else head :: dropFeeds tail := by
  simp only [dropFeeds, dropTrailing]
  cases dropTrailing (· == '\n') tail <;> simp

theorem dropFeeds_cons_inj {old new : Char} :
    dropFeeds (old :: olds) = dropFeeds (new :: news) ↔ old = new ∧ dropFeeds olds = dropFeeds news := by
  rw [dropFeeds_cons, dropFeeds_cons]
  grind

theorem sameLines_pieces_cons_iff {old new : Char} :
    SameLines (pieces (old :: olds)) (pieces (new :: news)) ↔
      old = new ∧ SameLines (pieces olds) (pieces news) := by
  by_cases feed : old = '\n'
  · subst feed
    by_cases same : new = '\n'
    · subst same
      simp only [pieces_newline, sameLines_cons_iff]
    · obtain ⟨_, _, _, next⟩ := pieces_cons same news
      rw [pieces_newline, next, sameLines_cons_iff]
      simp [Ne.symm same]
  · obtain ⟨_, _, cut, next⟩ := pieces_cons feed olds
    by_cases same : new = '\n'
    · subst same
      rw [pieces_newline, next, sameLines_cons_iff]
      simp [feed]
    · obtain ⟨_, _, cut', next'⟩ := pieces_cons same news
      rw [next, next', cut, cut', sameLines_cons_iff, sameLines_cons_iff, List.cons.injEq, and_assoc]

theorem sameLines_nil_pieces_iff : SameLines [] (pieces news) ↔ dropFeeds news = [] := by
  induction news with
  | nil => exact iff_of_true (sameLines_nil_cons_iff.mpr ⟨rfl, fun _ => rfl⟩) rfl
  | cons new news ih =>
      by_cases feed : new = '\n'
      · rw [feed, pieces_newline, sameLines_nil_cons_iff, ih, dropFeeds_cons]
        simp
      · obtain ⟨_, _, _, next⟩ := pieces_cons feed news
        rw [next, sameLines_nil_cons_iff, dropFeeds_cons]
        simp [feed]

theorem sameLines_singleton_nil_iff {lines : List (List Char)} :
    SameLines [[]] lines ↔ SameLines [] lines := by
  have none : ∀ index, lineAt [[]] index = lineAt [] index
    | 0 | _ + 1 => rfl
  simp only [SameLines, none]

/-- Two texts have the same lines if they are the same up to line feeds at their ends. -/
theorem sameLines_pieces_iff :
    SameLines (pieces olds) (pieces news) ↔ dropFeeds olds = dropFeeds news := by
  induction olds generalizing news with
  | nil => exact sameLines_singleton_nil_iff.trans (sameLines_nil_pieces_iff.trans eq_comm)
  | cons old olds ih =>
      cases news with
      | nil => rw [sameLines_comm]; exact sameLines_singleton_nil_iff.trans sameLines_nil_pieces_iff
      | cons new news => rw [sameLines_pieces_cons_iff, dropFeeds_cons_inj, ih]

theorem sameLines_linesOf_iff :
    SameLines (linesOf olds) (linesOf news) ↔ bareText olds = bareText news := by
  have cut : SameLines (linesOf olds) (linesOf news) ↔
      SameLines (pieces (withoutReturns olds)) (pieces (withoutReturns news)) :=
    forall_congr' fun index => by rw [sameLines_linesOf olds index, sameLines_linesOf news index]
  exact cut.trans sameLines_pieces_iff

/-! ### The comparison -/

/-- A line that is shown when two texts are compared: a line of one of them that is not empty and
that the other one has not under the same number. Numbers count from one. -/
inductive ShownLine (olds news : List (List Char)) : String → Prop
  | old {index : Nat} (apart : lineAt olds index ≠ lineAt news index) (some : lineAt olds index ≠ []) :
      ShownLine olds news (differenceLine "-" (index + 1) (lineAt olds index))
  | new {index : Nat} (apart : lineAt olds index ≠ lineAt news index) (some : lineAt news index ≠ []) :
      ShownLine olds news (differenceLine "+" (index + 1) (lineAt news index))

theorem mem_shown_iff {old new : List Char} {line : String} :
    line ∈ differenceLines.shown number old new ↔ old ≠ new ∧
      (old ≠ [] ∧ line = differenceLine "-" number old ∨
        new ≠ [] ∧ line = differenceLine "+" number new) := by
  rw [differenceLines.shown]
  by_cases same : old = new <;> by_cases none : old = [] <;> by_cases none' : new = [] <;>
    simp_all

theorem mem_differenceLines_iff {line : String} :
    line ∈ differenceLines number oldLines newLines ↔ ∃ index,
      line ∈ differenceLines.shown (number + index) (lineAt oldLines index) (lineAt newLines index) := by
  fun_induction differenceLines number oldLines newLines with
  | case1 => simp [mem_shown_iff]
  | case2 number old olds ih | case3 number new news ih | case4 number old olds new news ih =>
      rw [List.mem_append, ih, Iff.comm, ← Nat.or_exists_add_one]
      simp only [lineAt_cons_zero, lineAt_cons_succ, lineAt_nil, Nat.add_zero, Nat.add_assoc,
        Nat.add_comm 1]

theorem mem_differenceLines_one_iff {line : String} :
    line ∈ differenceLines 1 oldLines newLines ↔ ShownLine oldLines newLines line := by
  rw [mem_differenceLines_iff]
  simp only [mem_shown_iff, Nat.add_comm 1]
  constructor
  · rintro ⟨_, apart, ⟨some, rfl⟩ | ⟨some, rfl⟩⟩
    · exact .old apart some
    · exact .new apart some
  · rintro (⟨apart, some⟩ | ⟨apart, some⟩)
    · exact ⟨_, apart, .inl ⟨some, rfl⟩⟩
    · exact ⟨_, apart, .inr ⟨some, rfl⟩⟩

/-- Of two different lines one is not empty, and that one is shown. -/
theorem exists_shownLine_iff : (∃ line, ShownLine oldLines newLines line) ↔
    ¬ SameLines oldLines newLines := by
  rw [SameLines, not_forall]
  constructor
  · rintro ⟨_, ⟨apart, _⟩ | ⟨apart, _⟩⟩ <;> exact ⟨_, apart⟩
  · rintro ⟨index, apart⟩
    by_cases none : lineAt oldLines index = []
    · exact ⟨_, .new apart fun none' => apart (none.trans none'.symm)⟩
    · exact ⟨_, .old apart none⟩

theorem differenceLines_eq_nil_iff : differenceLines 1 (linesOf olds) (linesOf news) = [] ↔
    bareText olds = bareText news := by
  rw [← sameLines_linesOf_iff, ← not_iff_not, ← exists_shownLine_iff, List.eq_nil_iff_forall_not_mem]
  simp only [mem_differenceLines_one_iff, not_forall, not_not]

theorem differenceLine_ne_empty (sign : String) (number : Nat) (line : List Char) :
    differenceLine sign number line ≠ "" := by
  intro none
  have ended := congrArg String.toList none
  simp [differenceLine] at ended

theorem ShownLine.ne_empty {line : String} (shown : ShownLine oldLines newLines line) : line ≠ "" := by
  cases shown <;> exact differenceLine_ne_empty _ _ _

/-- The comparison of two texts is empty if they are the same up to line feeds at their ends and to
carriage returns in front of line feeds. -/
theorem lineDifference_eq_empty_iff (old new : String) :
    lineDifference old new = "" ↔ bareText old.toList = bareText new.toList := by
  rw [← differenceLines_eq_nil_iff, lineDifference]
  have shown : ∀ line ∈ differenceLines 1 (linesOf old.toList) (linesOf new.toList), line ≠ "" :=
    fun line listed => (mem_differenceLines_one_iff.mp listed).ne_empty
  generalize differenceLines 1 (linesOf old.toList) (linesOf new.toList) = lines at shown
  cases lines with
  | nil => exact iff_of_true rfl rfl
  | cons line lines =>
      refine iff_of_false (fun none => shown line List.mem_cons_self ?_) (List.cons_ne_nil _ _)
      have parts := congrArg String.toList none
      rw [String.join_cons, String.toList_append, String.toList_empty, List.append_eq_nil_iff] at parts
      exact String.toList_eq_nil_iff.mp parts.1

end DataClass
