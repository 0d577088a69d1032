import DataClass.Proofs.Accessor.Planning
import Mathlib
namespace DataClass

/-! Which fields have accessors of one name. All that the name of an accessor does not tell of its field
is the case of an ASCII letter at its beginning. -/

/-- The first name begins with a lower-case ASCII letter, and the second one is the same with this letter
in upper case. -/
def Uncapitalized (name capital : String) : Prop :=
  ∃ letter rest, letter.isLower = true ∧ name.toList = letter :: rest ∧
    capital.toList = letter.toUpper :: rest

variable {first second third : String}

/-- Letters that are raised to the same one are the same, or one of them is the other one raised. -/
theorem toUpper_eq_toUpper_iff {left right : Char} : left.toUpper = right.toUpper ↔
    left = right ∨ left.isLower = true ∧ right = left.toUpper ∨
      right.isLower = true ∧ left = right.toUpper := by
  constructor
  · intro same
    by_cases low : left.isLower = true <;> by_cases low' : right.isLower = true
    · have lowered := congrArg Char.toLower same
      rw [Char.toLower_toUpper_eq_toLower, Char.toLower_toUpper_eq_toLower,
        Char.toLower_eq_of_not_isUpper (Char.not_isUpper_of_isLower low),
        Char.toLower_eq_of_not_isUpper (Char.not_isUpper_of_isLower low')] at lowered
      exact .inl lowered
    · exact .inr (.inl ⟨low, (same.trans (Char.toUpper_eq_of_not_isLower low')).symm⟩)
    · exact .inr (.inr ⟨low', (Char.toUpper_eq_of_not_isLower low).symm.trans same⟩)
    · rw [Char.toUpper_eq_of_not_isLower low, Char.toUpper_eq_of_not_isLower low'] at same
      exact .inl same
  · rintro (rfl | ⟨_, rfl⟩ | ⟨_, rfl⟩)
    · rfl
    · exact (Char.toUpper_toUpper_eq_toUpper left).symm
    · exact Char.toUpper_toUpper_eq_toUpper right

theorem titlecase_eq_titlecase_iff : titlecase first = titlecase second ↔
    first = second ∨ Uncapitalized first second ∨ Uncapitalized second first := by
  rw [titlecase, titlecase, String.ofList_inj, ← String.toList_inj]
  simp only [Uncapitalized]
  cases first.toList with
  | nil => cases second.toList <;> simp [titlecaseChars]
  | cons letter rest =>
      cases second.toList with
      | nil => simp [titlecaseChars]
      | cons letter' rest' =>
          simp only [titlecaseChars, List.cons.injEq, toUpper_eq_toUpper_iff]
          grind

namespace Uncapitalized

theorem capital_eq (one : Uncapitalized first second) (other : Uncapitalized first third) :
    second = third := by
  obtain ⟨letter, rest, _, name, capital⟩ := one
  obtain ⟨letter', rest', _, name', capital'⟩ := other
  obtain ⟨rfl, rfl⟩ := List.cons.inj (name.symm.trans name')
  exact String.toList_inj.mp (capital.trans capital'.symm)

theorem name_eq (one : Uncapitalized first third) (other : Uncapitalized second third) :
    first = second := by
  obtain ⟨letter, rest, low, name, capital⟩ := one
  obtain ⟨letter', rest', low', name', capital'⟩ := other
  obtain ⟨raised, rfl⟩ := List.cons.inj (capital.symm.trans capital')
  rcases toUpper_eq_toUpper_iff.mp raised with rfl | ⟨_, high⟩ | ⟨_, high⟩
  · exact String.toList_inj.mp (name.trans name'.symm)
  · rw [high, Char.isLower_toUpper_eq_false] at low'
    cases low'
  · rw [high, Char.isLower_toUpper_eq_false] at low
    cases low

/-- A name that begins with a capital does not begin with a lower-case letter. -/
theorem not_capital (one : Uncapitalized first second) : ¬ Uncapitalized second third := by
  obtain ⟨letter, rest, _, _, capital⟩ := one
  rintro ⟨letter', rest', low, name, _⟩
  obtain ⟨rfl, _⟩ := List.cons.inj (name.symm.trans capital)
  rw [Char.isLower_toUpper_eq_false] at low
  cases low

end Uncapitalized

/-- Of three names that are raised to one, two are the same. -/
theorem eq_of_titlecase_eq (one : titlecase first = titlecase second)
    (other : titlecase second = titlecase third) : first = second ∨ second = third ∨ first = third := by
  rcases titlecase_eq_titlecase_iff.mp one with same | raised | lowered
  · exact .inl same
  · rcases titlecase_eq_titlecase_iff.mp other with same | again | back
    · exact .inr (.inl same)
    · exact absurd again raised.not_capital
    · exact .inr (.inr (raised.name_eq back))
  · rcases titlecase_eq_titlecase_iff.mp other with same | again | back
    · exact .inr (.inl same)
    · exact .inr (.inr (lowered.capital_eq again))
    · exact absurd lowered back.not_capital

/-- Accessors have the same name just if they are of the same kind and their fields have the same name
up to the case of an ASCII letter at its beginning. So no getter is called like a setter, the getters of
two fields have one name just if their setters have one, and of three fields with accessors of one name
two are called the same. -/
theorem accessorName_eq_iff :
    (∀ kind other field field', accessorName kind field = accessorName other field' ↔
      kind = other ∧ (field = field' ∨ Uncapitalized field field' ∨ Uncapitalized field' field)) ∧
    (∀ field field', accessorName .getter field ≠ accessorName .setter field') ∧
    (∀ field field', accessorName .getter field = accessorName .getter field' ↔
      accessorName .setter field = accessorName .setter field') ∧
    ∀ name field field' field'', (∃ kind, accessorName kind field = name) →
      (∃ kind, accessorName kind field' = name) → (∃ kind, accessorName kind field'' = name) →
      field = field' ∨ field' = field'' ∨ field = field'' := by
  refine ⟨fun kind other field field' => ?_, fun field field' same => ?_, fun field field' => ?_, ?_⟩
  · rw [← titlecase_eq_titlecase_iff]
    constructor
    · intro same
      obtain rfl := accessorName_lead same
      exact ⟨rfl, (accessorName_inj kind).mp same⟩
    · rintro ⟨rfl, same⟩
      exact (accessorName_inj kind).mpr same
  · cases accessorName_lead same
  · rw [accessorName_inj, accessorName_inj]
  · rintro name field field' field'' ⟨kind, rfl⟩ ⟨kind', same⟩ ⟨kind'', same'⟩
    obtain rfl := accessorName_lead same
    obtain rfl := accessorName_lead same'
    exact eq_of_titlecase_eq ((accessorName_inj _).mp same.symm)
      ((accessorName_inj _).mp (same.trans same'.symm))

/-- The getters of `url` and `Url` have one name, those of `élan` and `Élan` have not. -/
example : accessorName .getter "url" = accessorName .getter "Url" ∧
    accessorName .getter "élan" ≠ accessorName .getter "Élan" := by decide

end DataClass
