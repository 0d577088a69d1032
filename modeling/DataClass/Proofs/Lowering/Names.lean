import DataClass.Proofs.Lowering.Items
namespace DataClass.Lowering

open Target

/-! Names behind escaping. Two names are written as one word exactly if one of them is a reserved word
that cannot be raw, and the other one is that word with an underscore behind it. -/

/-- A reserved word that cannot be raw is written as another name, which is not reserved. -/
def TakesNameOf (word name : String) : Prop := word ∈ TargetWord.neverRaw ∧ name = word ++ "_"

/-- One of two names is written as the other one is. -/
def Merge (left right : String) : Prop := TakesNameOf left right ∨ TakesNameOf right left

/-! ### Spellings -/

/-- The three ways in which a name is written. -/
inductive SpelledAs : String → String → Prop where
  | plain {name : String} (free : TargetWord.isReserved name = false) : SpelledAs name name
  | raw {name : String} (reserved : TargetWord.isReserved name = true)
      (markable : TargetWord.canBeRaw name = true) : SpelledAs name ("r#" ++ name)
  | suffixed {name : String} (fixed : name ∈ TargetWord.neverRaw) : SpelledAs name (name ++ "_")

theorem spelledAs_identifierSpelling (name : String) : SpelledAs name (identifierSpelling name) := by
  unfold identifierSpelling
  cases reserved : TargetWord.isReserved name with
  | false => exact .plain reserved
  | true =>
      rw [if_pos rfl]
      cases markable : TargetWord.canBeRaw name with
      | true => exact .raw reserved markable
      | false => exact .suffixed (by simpa [TargetWord.canBeRaw] using markable)

theorem isReserved_of_mem_neverRaw {word : String} (fixed : word ∈ TargetWord.neverRaw) :
    TargetWord.isReserved word = true := by
  have each : ∀ word ∈ TargetWord.neverRaw, TargetWord.isReserved word = true := by decide
  exact each word fixed

theorem isReserved_suffixed {word : String} (fixed : word ∈ TargetWord.neverRaw) :
    TargetWord.isReserved (word ++ "_") = false := by
  have each : ∀ word ∈ TargetWord.neverRaw, TargetWord.isReserved (word ++ "_") = false := by decide
  exact each word fixed

/-- The raw mark has a sign that no identifier has. -/
theorem not_isIdentifier_raw (name : String) : isIdentifier ("r#" ++ name) = false := by
  simp [isIdentifier, String.toList_append, isIdentifierChars, isIdentifierStart, isIdentifierRest]

theorem isIdentifier_suffixed {word : String} (fixed : word ∈ TargetWord.neverRaw) :
    isIdentifier (word ++ "_") = true := by
  have each : ∀ word ∈ TargetWord.neverRaw, isIdentifier (word ++ "_") = true := by decide
  exact each word fixed

theorem not_mem_neverRaw_of_canBeRaw {name : String} (markable : TargetWord.canBeRaw name = true) :
    name ∉ TargetWord.neverRaw := by
  simpa [TargetWord.canBeRaw] using markable

theorem suffix_inj {left right : String} (same : left ++ "_" = right ++ "_") : left = right := by
  have chars := congrArg String.toList same
  rw [String.toList_append, String.toList_append] at chars
  exact String.toList_inj.mp (List.append_cancel_right chars)

theorem rawMark_inj {left right : String} (same : "r#" ++ left = "r#" ++ right) : left = right := by
  have chars := congrArg String.toList same
  rw [String.toList_append, String.toList_append] at chars
  exact String.toList_inj.mp (List.append_cancel_left chars)

/-- Names that merge are written alike. -/
theorem Merge.identifierSpelling_eq {left right : String} (merge : Merge left right) :
    identifierSpelling left = identifierSpelling right := by
  have taken {word name : String} (takes : TakesNameOf word name) :
      identifierSpelling word = identifierSpelling name := by
    obtain ⟨fixed, rfl⟩ := takes
    have plain : identifierSpelling (word ++ "_") = word ++ "_" := by
      rw [identifierSpelling, if_neg (by simp [isReserved_suffixed fixed])]
    rw [plain, identifierSpelling, if_pos (isReserved_of_mem_neverRaw fixed),
      if_neg fun markable => not_mem_neverRaw_of_canBeRaw markable fixed]
  exact merge.elim taken fun takes => (taken takes).symm

/-- Different identifiers that are written alike merge, whichever way each of them is written. -/
theorem SpelledAs.merge {left right spelling : String} (leftNamed : isIdentifier left = true)
    (rightNamed : isIdentifier right = true) (first : SpelledAs left spelling)
    (second : SpelledAs right spelling) (apart : left ≠ right) : Merge left right := by
  have unmarked {name : String} (fixed : name ∈ TargetWord.neverRaw) (other : String) :
      "r#" ++ other ≠ name ++ "_" := fun same => by
    have known := isIdentifier_suffixed fixed
    rw [← same, not_isIdentifier_raw] at known
    cases known
  cases first with
  | plain free =>
      cases second with
      | plain => exact absurd rfl apart
      | raw => simp [not_isIdentifier_raw] at leftNamed
      | suffixed fixed => exact .inr ⟨fixed, rfl⟩
  | raw reserved markable =>
      generalize written : "r#" ++ left = spelling at second
      cases second with
      | plain => simp [← written, not_isIdentifier_raw] at rightNamed
      | raw => exact absurd (rawMark_inj written) apart
      | suffixed fixed => exact absurd written (unmarked fixed left)
  | suffixed fixed =>
      generalize written : left ++ "_" = spelling at second
      cases second with
      | plain => exact .inl ⟨fixed, written.symm⟩
      | raw => exact absurd written.symm (unmarked fixed right)
      | suffixed => exact absurd (suffix_inj written) apart

theorem isIdentifier_of_identifier {name : String} {token : TargetToken}
    (named : identifier name = .ok token) :
    isIdentifier name = true ∧ token = .word (identifierSpelling name) := by
  unfold identifier at named
  split at named
  · cases named
  · next accepted => exact ⟨by simp_all, (Except.ok.inj named).symm⟩

/-! ### What is declared -/

/-- The name that an item, a field or a parameter declares: its first word that is not reserved. -/
def declaredName? (tokens : Tokens) : Option TargetToken :=
  tokens.find? fun token =>
    match token with
    | .word spelling => isName spelling
    | _ => false

/-- What a field, a parameter, a function or method, or a class with a name is written as, in whatever
place of whatever program it stands. -/
inductive DeclaredAs (name : String) : Tokens → Prop where
  | field {table : ClassTable} {info : ClassInfo} {field : Field} {result : LoweredField}
      (called : field.name = name) (lowered : lowerField table info field = .ok result) :
      DeclaredAs name result.declaration
  | param {context : Context} {param : Param} {tokens : Tokens} (called : param.name = name)
      (lowered : lowerParam context param = .ok tokens) : DeclaredAs name tokens
  | function {context : Context} {receiver : List Tokens} {method : Method} {tokens : Tokens}
      (called : method.name = name) (lowered : lowerMethod context receiver method = .ok tokens) :
      DeclaredAs name tokens
  /-- The first item of a class is an attribute, and the second one the structure. -/
  | type {table : ClassTable} {decl : Class} {tokens item : Tokens} (called : decl.name = name)
      (lowered : lowerClass table decl = .ok tokens) (cut : (items tokens)[1]? = some item) :
      DeclaredAs name item

theorem declaredName?_name (name : String) (rest : Tokens) :
    declaredName? (.word (identifierSpelling name) :: rest) =
      some (.word (identifierSpelling name)) := by
  have named : isName (identifierSpelling name) = true := by
    rw [isName, isReserved_identifierSpelling]
    rfl
  simp [declaredName?, named]

theorem declaredName?_reserved {word : String} (reserved : TargetWord.isReserved word = true)
    (rest : Tokens) : declaredName? (.word word :: rest) = declaredName? rest := by
  simp [declaredName?, isName, reserved]

theorem declaredName?_visibility (isPublic : Bool) (rest : Tokens) :
    declaredName? (visibility isPublic ++ rest) = declaredName? rest := by
  cases isPublic with
  | false => rfl
  | true => exact declaredName?_reserved (by decide) rest

theorem declaredName?_binding (context : Context) (name other : String) (rest : Tokens) :
    declaredName? (binding context name (.word (identifierSpelling other)) ++ rest) =
      some (.word (identifierSpelling other)) := by
  unfold binding
  split
  · exact (declaredName?_reserved (by decide) _).trans (declaredName?_name other rest)
  · exact declaredName?_name other rest

theorem items_lowerClass {table : ClassTable} {decl : Class} {tokens : Tokens}
    (lowered : lowerClass table decl = .ok tokens) :
    ∃ mark name fields later, identifier decl.name = .ok name ∧
      items tokens = mark :: structureTokens decl name fields :: later := by
  unfold lowerClass at lowered
  split at lowered
  · cases lowered
  · next info found =>
    obtain ⟨name, named, lowered⟩ := Lowered.bind_eq_ok.mp lowered
    obtain ⟨fields, fielded, lowered⟩ := Lowered.bind_eq_ok.mp lowered
    obtain ⟨new, _, lowered⟩ := Lowered.bind_eq_ok.mp lowered
    obtain ⟨methods, _, lowered⟩ := Lowered.bind_eq_ok.mp lowered
    obtain rfl := Except.ok.inj lowered
    have balanced := forall_mem_of_forall₂ (Lowered.mapM_eq_ok.mp fielded)
      fun _ _ lowered => balanced_lowerField lowered
    have derived (hasDefaults : Bool) : IsItem (derivation hasDefaults) :=
      isItem_itemMark (.inl rfl) _ _
    have structured := @isItem_structureTokens decl _ fields (flat_identifier named)
      fun field inside => (balanced field inside).1
    have cut (hasDefaults : Bool) (built rest : Tokens) :
        items (derivation hasDefaults ++ structureTokens decl name fields ++ built ++ rest) =
          derivation hasDefaults :: structureTokens decl name fields :: items (built ++ rest) := by
      rw [List.append_assoc, List.append_assoc, derived, structured]
    exact ⟨_, name, fields, _, named, cut _ _ _⟩

/-- Whatever is declared under a name has the spelling of that name. -/
theorem DeclaredAs.declaredName? {name : String} {tokens : Tokens} (declared : DeclaredAs name tokens) :
    Lowering.declaredName? tokens = some (.word (identifierSpelling name)) := by
  cases declared with
  | @field _ _ field _ called lowered =>
      subst called
      unfold lowerField at lowered
      split at lowered
      · cases lowered
      · obtain ⟨token, named, lowered⟩ := Lowered.bind_eq_ok.mp lowered
        obtain ⟨type, _, lowered⟩ := Lowered.bind_eq_ok.mp lowered
        obtain ⟨initial, _, lowered⟩ := Lowered.bind_eq_ok.mp lowered
        obtain rfl := Except.ok.inj lowered
        obtain ⟨_, rfl⟩ := isIdentifier_of_identifier named
        exact (declaredName?_visibility _ _).trans (declaredName?_name _ _)
  | @param _ param _ called lowered =>
      subst called
      obtain ⟨token, named, lowered⟩ := Lowered.bind_eq_ok.mp lowered
      obtain ⟨type, _, lowered⟩ := Lowered.bind_eq_ok.mp lowered
      obtain rfl := Except.ok.inj lowered
      obtain ⟨_, rfl⟩ := isIdentifier_of_identifier named
      exact declaredName?_binding _ _ _ _
  | function called lowered =>
      subst called
      obtain ⟨token, params, front, body, named, _, _, _, rfl⟩ := lowerMethod_eq_ok.mp lowered
      obtain ⟨_, rfl⟩ := isIdentifier_of_identifier named
      simp only [List.append_assoc, List.cons_append]
      rw [declaredName?_visibility, declaredName?_reserved (by decide), declaredName?_name]
  | type called lowered cut =>
      subst called
      obtain ⟨mark, token, fields, later, named, whole⟩ := items_lowerClass lowered
      rw [whole] at cut
      obtain rfl := Option.some.inj cut
      obtain ⟨_, rfl⟩ := isIdentifier_of_identifier named
      unfold structureTokens
      rw [declaredName?_visibility, declaredName?_reserved (by decide), declaredName?_name]

/-- Escaping keeps names apart but for the reserved words that cannot be raw. No name is written as a
reserved word. Two different names are written as one word exactly if they merge, that is, if one of them
is `self`, `Self`, `super` or `crate` and the other one is that word with an underscore behind it, and
exactly then two fields, parameters, functions or classes with these names are declared under one name. -/
theorem identifier_eq_iff_merge {left right : String} {first second : TargetToken}
    (leftNamed : identifier left = .ok first) (rightNamed : identifier right = .ok second)
    (apart : left ≠ right) :
    (first = second ↔ Merge left right) ∧
      (∀ word, TargetWord.isReserved word = true → first ≠ .word word ∧ second ≠ .word word) ∧
      ∀ firstTokens secondTokens, DeclaredAs left firstTokens → DeclaredAs right secondTokens →
        declaredName? firstTokens = some first ∧ declaredName? secondTokens = some second ∧
          (declaredName? firstTokens = declaredName? secondTokens ↔ Merge left right) := by
  obtain ⟨leftKnown, rfl⟩ := isIdentifier_of_identifier leftNamed
  obtain ⟨rightKnown, rfl⟩ := isIdentifier_of_identifier rightNamed
  have unreserved (name word : String) (reserved : TargetWord.isReserved word = true) :
      TargetToken.word (identifierSpelling name) ≠ .word word := fun same => by
    rw [← TargetToken.word.inj same, isReserved_identifierSpelling] at reserved
    cases reserved
  have together : TargetToken.word (identifierSpelling left) = .word (identifierSpelling right) ↔
      Merge left right := by
    constructor
    · intro same
      have written := spelledAs_identifierSpelling right
      rw [← TargetToken.word.inj same] at written
      exact (spelledAs_identifierSpelling left).merge leftKnown rightKnown written apart
    · exact fun merge => congrArg _ merge.identifierSpelling_eq
  refine ⟨together, fun word reserved => ⟨unreserved left word reserved, unreserved right word reserved⟩,
    fun firstTokens secondTokens firstDeclared secondDeclared => ?_⟩
  refine ⟨firstDeclared.declaredName?, secondDeclared.declaredName?, ?_⟩
  rw [firstDeclared.declaredName?, secondDeclared.declaredName?, Option.some.injEq]
  exact together

/-- A field that has the name of a reserved word, or of what this is written as. -/
def crateField (name : String) : Field := ⟨[], false, name, some (.named .origin ["Int"] []), none⟩

def crateClass : Class :=
  ⟨[], false, "A", [.field .origin (crateField "crate"), .field .origin (crateField "crate_")]⟩

theorem exists_lowerField_crateField {name : String} (named : name = "crate" ∨ name = "crate_") :
    ∃ result, lowerField .empty (.ofClass crateClass) (crateField name) = .ok result ∧
      result.declaration = [.word "crate_", .mark ":", .word "i64"] := by
  have lowers : (lowerField .empty (.ofClass crateClass) (crateField name)).toOption.map
      (·.declaration) = some [.word "crate_", .mark ":", .word "i64"] := by
    rcases named with rfl | rfl <;> decide +kernel
  cases lowered : lowerField .empty (.ofClass crateClass) (crateField name) with
  | error fault => simp [lowered, Except.toOption] at lowers
  | ok result => exact ⟨result, rfl, by simpa [lowered, Except.toOption] using lowers⟩

/-- The class can be lowered, and both of its fields are declared as `crate_`. -/
theorem identifier_eq_iff_merge_crate :
    ∃ first second, DeclaredAs "crate" first ∧ DeclaredAs "crate_" second ∧
      declaredName? first = declaredName? second ∧
      ((Emitter.fresh ⟨false, false⟩).emit ⟨[.type .origin crateClass]⟩).1.toOption.map (·.tokens) =
        some (derivation false ++ structureTokens crateClass (.word "A") [⟨first, []⟩, ⟨second, []⟩]) := by
  have merge : Merge "crate" "crate_" := .inl ⟨by decide, by decide⟩
  obtain ⟨first, lowered, written⟩ := exists_lowerField_crateField (.inl rfl)
  obtain ⟨second, loweredToo, writtenToo⟩ := exists_lowerField_crateField (.inr rfl)
  have declared : DeclaredAs "crate" first.declaration := .field rfl lowered
  have declaredToo : DeclaredAs "crate_" second.declaration := .field rfl loweredToo
  obtain ⟨_, _, each⟩ := @identifier_eq_iff_merge "crate" "crate_" _ _ rfl rfl (by decide)
  obtain ⟨_, _, together⟩ := each _ _ declared declaredToo
  refine ⟨_, _, declared, declaredToo, together.mpr merge, ?_⟩
  rw [written, writtenToo]
  decide +kernel

end DataClass.Lowering
