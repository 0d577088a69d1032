import DataClass.Lowering.Token
namespace DataClass.Target

open Lowering

/-! How the target language cuts tokens into items, as far as lowered programs use it.

An item is an attribute, or ends with a semicolon or with a block in braces. What stands in brackets
belongs to the item around it. The items of an implementation are cut in the same way. -/

def isOpening (token : TargetToken) : Bool :=
  token == .mark "(" || token == .mark "[" || token == .mark "\x7b"

def isClosing (token : TargetToken) : Bool :=
  token == .mark ")" || token == .mark "]" || token == .mark "\x7d"

/-- Whether an item is over when its outermost bracket is closed. -/
def isOverAt (item : Tokens) (closing : TargetToken) : Bool :=
  closing == .mark "\x7d" || item.head? == some (.mark "#")

/-- Cut tokens into items. The first tokens of the first item have been read, and so many brackets
are open. -/
def itemsFrom (depth : Nat) (item : Tokens) : Tokens → List Tokens
  | [] => if item.isEmpty then [] else [item]
  | token :: rest =>
      if isOpening token then itemsFrom (depth + 1) (item ++ [token]) rest
      else if isClosing token then
        if depth ≤ 1 && isOverAt item token then (item ++ [token]) :: itemsFrom 0 [] rest
        else itemsFrom (depth - 1) (item ++ [token]) rest
      else if depth == 0 && token == .mark ";" then (item ++ [token]) :: itemsFrom 0 [] rest
      else itemsFrom depth (item ++ [token]) rest

def items (tokens : Tokens) : List Tokens := itemsFrom 0 [] tokens

/-- The block of an implementation of a type without a trait. -/
def implementation? (name : TargetToken) : Tokens → Option Tokens
  | .word "impl" :: other :: .mark "\x7b" :: block => if other = name then some block.dropLast else none
  | _ => none

/-- The blocks of the implementations of a type. -/
def implementations (name : TargetToken) (tokens : Tokens) : List Tokens :=
  (items tokens).filterMap (implementation? name)

/-- The name of an item that is a function. -/
def functionName? : Tokens → Option TargetToken
  | .word "pub" :: .word "fn" :: name :: _ => some name
  | .word "fn" :: name :: _ => some name
  | _ => none

/-- The functions of a name among the items of a block. -/
def functions (name : TargetToken) (block : Tokens) : List Tokens :=
  (items block).filter fun item => functionName? item == some name

/-! ### Brackets -/

/-- Every bracket that is opened is closed. -/
inductive Balanced : Tokens → Prop where
  | nil : Balanced []
  | token {token : TargetToken} {rest : Tokens} (opens : isOpening token = false)
      (closes : isClosing token = false) (later : Balanced rest) : Balanced (token :: rest)
  | group {opening closing : TargetToken} {inner rest : Tokens} (opens : isOpening opening = true)
      (closes : isClosing closing = true) (inside : Balanced inner) (later : Balanced rest) :
      Balanced (opening :: (inner ++ closing :: rest))

/-- What may stand in front of the block or the semicolon of an item. -/
inductive Flat : Tokens → Prop where
  | nil : Flat []
  | token {token : TargetToken} {rest : Tokens} (opens : isOpening token = false)
      (closes : isClosing token = false) (goesOn : token ≠ .mark ";") (later : Flat rest) :
      Flat (token :: rest)
  | group {inner rest : Tokens} (inside : Balanced inner) (later : Flat rest) :
      Flat (.mark "(" :: (inner ++ .mark ")" :: rest))

namespace Balanced

variable {left right inner : Tokens}

theorem append (first : Balanced left) (second : Balanced right) : Balanced (left ++ right) := by
  induction first with
  | nil => exact second
  | token opens closes _ ih => exact .token opens closes ih
  | group opens closes inside _ _ ih =>
      rw [List.cons_append, List.append_assoc, List.cons_append]
      exact .group opens closes inside ih

theorem word (spelling : String) (later : Balanced right) : Balanced (.word spelling :: right) :=
  .token rfl rfl later

theorem parens (inside : Balanced inner) : Balanced (Tokens.inParens inner) :=
  .group (by decide) (by decide) inside .nil

theorem braces (inside : Balanced inner) : Balanced (Tokens.inBraces inner) :=
  .group (by decide) (by decide) inside .nil

theorem separated {separator : Tokens} (between : Balanced separator) {parts : List Tokens}
    (each : ∀ part ∈ parts, Balanced part) : Balanced (Tokens.separated separator parts) := by
  induction parts with
  | nil => exact .nil
  | cons first rest ih =>
      obtain ⟨here, later⟩ := List.forall_mem_cons.mp each
      cases rest with
      | nil => exact here
      | cons second rest => exact (here.append between).append (ih later)

theorem commaSeparated {parts : List Tokens} (each : ∀ part ∈ parts, Balanced part) :
    Balanced (Tokens.commaSeparated parts) :=
  separated (.token (by decide) (by decide) .nil) each

theorem flatten {parts : List Tokens} (each : ∀ part ∈ parts, Balanced part) :
    Balanced parts.flatten := by
  induction parts with
  | nil => exact .nil
  | cons first rest ih =>
      obtain ⟨here, later⟩ := List.forall_mem_cons.mp each
      exact here.append (ih later)

end Balanced

namespace Flat

variable {left right inner head : Tokens}

theorem balanced (flat : Flat head) : Balanced head := by
  induction flat with
  | nil => exact .nil
  | token opens closes _ _ ih => exact .token opens closes ih
  | group inside _ ih => exact .group (by decide) (by decide) inside ih

theorem append (first : Flat left) (second : Flat right) : Flat (left ++ right) := by
  induction first with
  | nil => exact second
  | token opens closes goesOn _ ih => exact .token opens closes goesOn ih
  | group inside _ ih =>
      rw [List.cons_append, List.append_assoc, List.cons_append]
      exact .group inside ih

theorem word (spelling : String) (later : Flat right) : Flat (.word spelling :: right) :=
  .token rfl rfl (by simp) later

theorem parens (inside : Balanced inner) : Flat (Tokens.inParens inner) := .group inside .nil

theorem separated {separator : Tokens} (between : Flat separator) {parts : List Tokens}
    (each : ∀ part ∈ parts, Flat part) : Flat (Tokens.separated separator parts) := by
  induction parts with
  | nil => exact .nil
  | cons first rest ih =>
      obtain ⟨here, later⟩ := List.forall_mem_cons.mp each
      cases rest with
      | nil => exact here
      | cons second rest => exact (here.append between).append (ih later)

end Flat

/-! ### Cutting -/

theorem isOpening_of_isClosing {token : TargetToken} (closes : isClosing token = true) :
    isOpening token = false := by
  simp only [isClosing, Bool.or_eq_true, beq_iff_eq] at closes
  rcases closes with (rfl | rfl) | rfl <;> decide

variable {depth : Nat} {item rest inner head : Tokens}

/-- Inside of a bracket nothing ends the item. -/
theorem itemsFrom_balanced (balanced : Balanced inner) (depth : Nat) (item rest : Tokens) :
    itemsFrom (depth + 1) item (inner ++ rest) = itemsFrom (depth + 1) (item ++ inner) rest := by
  induction balanced generalizing depth item rest with
  | nil => rw [List.append_nil, List.nil_append]
  | @token token later opens closes _ ih =>
      rw [List.cons_append, itemsFrom, if_neg (by simp [opens]), if_neg (by simp [closes]),
        if_neg (by simp), ih, List.append_assoc, List.singleton_append]
  | @group opening closing inner later opens closes _ _ ih other =>
      rw [List.cons_append, itemsFrom, if_pos opens, List.append_assoc, ih, List.cons_append,
        itemsFrom, if_neg (by simp [isOpening_of_isClosing closes]), if_pos closes,
        if_neg (by simp), Nat.add_sub_cancel, other]
      simp only [List.append_assoc, List.cons_append, List.nil_append]

/-- Nothing in front of the block or the semicolon of an item ends it. -/
theorem itemsFrom_flat (flat : Flat head) (first : String) (item rest : Tokens) :
    itemsFrom 0 (.word first :: item) (head ++ rest) =
      itemsFrom 0 (.word first :: (item ++ head)) rest := by
  induction flat generalizing item with
  | nil => rw [List.append_nil, List.nil_append]
  | @token token later opens closes goesOn _ ih =>
      rw [List.cons_append, itemsFrom, if_neg (by simp [opens]), if_neg (by simp [closes]),
        if_neg (by simp [goesOn]), List.cons_append, ih, List.append_assoc, List.singleton_append]
  | @group inner later inside _ ih =>
      have closing : (inner ++ .mark ")" :: later) ++ rest = inner ++ .mark ")" :: (later ++ rest) :=
        List.append_assoc ..
      rw [List.cons_append, itemsFrom, if_pos (by decide), closing, itemsFrom_balanced inside,
        itemsFrom, if_neg (by decide), if_pos (by decide), if_neg (by simp [isOverAt])]
      simp only [Nat.zero_add, Nat.sub_self, List.cons_append, List.append_assoc, List.nil_append, ih]

/-- One whole item, whatever follows. -/
def IsItem (item : Tokens) : Prop := ∀ rest, items (item ++ rest) = item :: items rest

theorem isItem_ended (first : String) (flat : Flat head) :
    IsItem (.word first :: (head ++ [.mark ";"])) := by
  intro rest
  rw [items, List.cons_append, itemsFrom, if_neg (by simp [isOpening]), if_neg (by simp [isClosing]),
    if_neg (by simp), List.nil_append, List.append_assoc, itemsFrom_flat flat,
    List.singleton_append, itemsFrom, if_neg (by decide), if_neg (by decide), if_pos (by decide)]
  rfl

theorem isItem_block (first : String) (flat : Flat head) (inside : Balanced inner) :
    IsItem (.word first :: (head ++ Tokens.inBraces inner)) := by
  intro rest
  rw [items, List.cons_append, itemsFrom, if_neg (by simp [isOpening]), if_neg (by simp [isClosing]),
    if_neg (by simp), List.nil_append, List.append_assoc, itemsFrom_flat flat, Tokens.inBraces,
    List.cons_append, List.cons_append, itemsFrom, if_pos (by decide), List.append_assoc,
    itemsFrom_balanced inside, List.singleton_append, itemsFrom, if_neg (by decide),
    if_pos (by decide), if_pos (by simp [isOverAt])]
  simp [items]

/-- An attribute, with an exclamation mark if it is about the whole file. -/
theorem isItem_attribute {signs : Tokens} (known : signs = [] ∨ signs = [.mark "!"])
    (inside : Balanced inner) : IsItem (.mark "#" :: (signs ++ Tokens.inBrackets inner)) := by
  intro rest
  have whole (item : Tokens) : itemsFrom 0 (.mark "#" :: item) (Tokens.inBrackets inner ++ rest) =
      (.mark "#" :: (item ++ Tokens.inBrackets inner)) :: items rest := by
    rw [Tokens.inBrackets, List.cons_append, List.cons_append, itemsFrom, if_pos (by decide),
      List.append_assoc, itemsFrom_balanced inside, List.singleton_append, itemsFrom,
      if_neg (by decide), if_pos (by decide), if_pos (by simp [isOverAt])]
    simp [items]
  rcases known with rfl | rfl
  · exact whole []
  · exact whole [.mark "!"]

theorem items_flatten {parts : List Tokens} (each : ∀ part ∈ parts, IsItem part) (rest : Tokens) :
    items (parts.flatten ++ rest) = parts ++ items rest := by
  induction parts with
  | nil => rfl
  | cons first later ih =>
      obtain ⟨here, behind⟩ := List.forall_mem_cons.mp each
      rw [List.flatten_cons, List.append_assoc, here, ih behind, List.cons_append]

theorem implementations_flatten (name : TargetToken) {parts : List Tokens}
    (each : ∀ part ∈ parts, IsItem part) (rest : Tokens) :
    implementations name (parts.flatten ++ rest) =
      parts.filterMap (implementation? name) ++ implementations name rest := by
  rw [implementations, items_flatten each, List.filterMap_append]
  rfl

theorem functions_flatten (name : TargetToken) {parts : List Tokens}
    (each : ∀ part ∈ parts, IsItem part) :
    functions name parts.flatten = parts.filter fun item => functionName? item == some name := by
  have cut := items_flatten each []
  rw [List.append_nil] at cut
  rw [functions, cut]
  exact congrArg (List.filter _) (List.append_nil parts)

end DataClass.Target
