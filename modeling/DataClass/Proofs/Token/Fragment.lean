import DataClass.Proofs.Token.Spelling
namespace DataClass.Token

/-! Pieces of a text that stand for tokens of their own. A *fragment* does so in front of a text that
makes it no longer, a *front* in front of any text. -/

def Fragment (text : String) (kinds : List TokenKind) : Prop :=
  ∀ rest later, Parted rest → Spells rest later →
    Spells (text.toList ++ rest) (kinds.map TokenKind.written ++ later)

def Front (text : String) (kinds : List TokenKind) : Prop :=
  ∀ rest later, Spells rest later →
    Spells (text.toList ++ rest) (kinds.map TokenKind.written ++ later)

/-- A text that makes nothing in front of it longer. -/
def Parts (text : String) : Prop := ∀ rest, Parted (text.toList ++ rest)

/-- A text that makes no comparison of a sign in front of it. -/
def Unequal (text : String) : Prop :=
  ∀ rest, Parted rest → (text.toList ++ rest).head? ≠ some '='

variable {first second : String} {kinds others : List TokenKind}

theorem Front.fragment (front : Front first kinds) : Fragment first kinds :=
  fun rest later _ spelled => front rest later spelled

theorem Front.append (front : Front first kinds) (behind : Front second others) :
    Front (first ++ second) (kinds ++ others) := by
  intro rest later spelled
  rw [String.toList_append, List.append_assoc, List.map_append, List.append_assoc]
  exact front _ _ (behind rest later spelled)

theorem Front.before (front : Front first kinds) (behind : Fragment second others) :
    Fragment (first ++ second) (kinds ++ others) := by
  intro rest later parted spelled
  rw [String.toList_append, List.append_assoc, List.map_append, List.append_assoc]
  exact front _ _ (behind rest later parted spelled)

theorem Fragment.closed (fragment : Fragment first kinds) (parts : Parts second)
    (behind : Front second others) : Front (first ++ second) (kinds ++ others) := by
  intro rest later spelled
  rw [String.toList_append, List.append_assoc, List.map_append, List.append_assoc]
  exact fragment _ _ (parts rest) (behind rest later spelled)

theorem Fragment.before (fragment : Fragment first kinds)
    (parts : ∀ rest, Parted rest → Parted (second.toList ++ rest))
    (behind : Fragment second others) : Fragment (first ++ second) (kinds ++ others) := by
  intro rest later parted spelled
  rw [String.toList_append, List.append_assoc, List.map_append, List.append_assoc]
  exact fragment _ _ (parts rest parted) (behind rest later parted spelled)

theorem parts_of_chars {char : Char} {chars : List Char} (found : first.toList = char :: chars)
    (name : isIdentifierRest char = false) (sign : char ∉ ['=', '/', '*', '.']) : Parts first := by
  intro rest
  rw [found]
  exact parted_cons _ name sign

theorem Parts.append (parts : Parts first) : Parts (first ++ second) := by
  intro rest
  rw [String.toList_append, List.append_assoc]
  exact parts _

theorem unequal_of_chars {char : Char} {chars : List Char} (found : first.toList = char :: chars)
    (other : char ≠ '=') : Unequal first := by
  intro rest _
  simpa [found] using other

theorem front_empty : Front "" [] := fun _ _ spelled => spelled

theorem front_space : Front " " [] := fun _ _ spelled => spelled.space

theorem parts_space : Parts " " := parts_of_chars rfl rfl (by decide)

theorem front_punctuation (mark : Punctuation) : Front mark.spelling [.punctuation mark] := by
  intro rest later spelled
  rw [Punctuation.spelling, String.toList_singleton]
  exact spelled.punctuation mark

theorem parts_punctuation (mark : Punctuation) (other : mark ≠ .dot) : Parts mark.spelling := by
  intro rest
  rw [Punctuation.spelling, String.toList_singleton]
  cases mark <;> first | exact parted_cons rest rfl (by decide) | exact absurd rfl other

theorem fragment_keyword (word : Keyword) : Fragment word.canonical [.keyword word] :=
  fun _ _ parted spelled => spelled.keyword parted.name word

theorem fragment_identifier {name : String} (lexical : (TokenKind.identifier name).IsLexical) :
    Fragment name [.identifier name] :=
  fun _ _ parted spelled => spelled.identifier parted.name lexical

theorem fragment_operator (sign : Operator) : Fragment sign.spelling [.operator sign] := by
  intro rest later parted spelled
  have apart {char : Char} (listed : char ∈ ['=', '/', '*']) : rest.head? ≠ some char :=
    fun head => parted.sign char head listed
  exact spelled.operator sign (apart (by simp)) fun _ => ⟨apart (by simp), apart (by simp)⟩

end DataClass.Token
