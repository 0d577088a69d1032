namespace DataClass

/-! Comparing parts that may be missing, and lists of parts. -/

variable {α : Type}

/-- Both parts are there and agree, or both are missing. -/
def agreesOption (agrees : α → α → Bool) : Option α → Option α → Bool
  | none, none => true
  | some left, some right => agrees left right
  | _, _ => false

/-- The lists have the same length and agree item by item. -/
def agreesList (agrees : α → α → Bool) : List α → List α → Bool
  | [], [] => true
  | left :: lefts, right :: rights => agrees left right && agreesList agrees lefts rights
  | _, _ => false

end DataClass
