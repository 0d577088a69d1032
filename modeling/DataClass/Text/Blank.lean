namespace DataClass

/-! White space, and texts without it at their end. -/

variable {α : Type}

/-- First and last code point of each range of white space. -/
def whiteSpaceRanges : List (Nat × Nat) :=
  [(0x9, 0xd), (0x20, 0x20), (0x85, 0x85), (0xa0, 0xa0), (0x1680, 0x1680), (0x2000, 0x200a),
   (0x2028, 0x2029), (0x202f, 0x202f), (0x205f, 0x205f), (0x3000, 0x3000)]

def isWhiteSpace (char : Char) : Bool :=
  whiteSpaceRanges.any fun (first, last) => first ≤ char.toNat && char.toNat ≤ last

/-- What is left of a list without the blank items at its end. -/
def dropTrailing (blank : α → Bool) : List α → List α
  | [] => []
  | head :: tail =>
      match dropTrailing blank tail with
      | [] => if blank head then [] else [head]
      | next :: rest => head :: next :: rest

/-- A list that has been cut ends in no blank item. -/
theorem dropTrailing_getLast? (blank : α → Bool) (items : List α) (last : α)
    (ending : (dropTrailing blank items).getLast? = some last) : blank last = false := by
  induction items with
  | nil => simp [dropTrailing] at ending
  | cons head tail ih =>
      cases kept : dropTrailing blank tail with
      | nil =>
          cases isBlank : blank head with
          | true => simp [dropTrailing, kept, isBlank] at ending
          | false =>
              simp only [dropTrailing, kept, isBlank, Bool.false_eq_true, if_false,
                List.getLast?_singleton, Option.some.injEq] at ending
              rw [← ending, isBlank]
      | cons next rest =>
          apply ih
          rw [kept]
          simpa [dropTrailing, kept] using ending

/-- The characters up to the last one that is not white space. -/
def trimEnd (chars : List Char) : List Char := dropTrailing isWhiteSpace chars

end DataClass
