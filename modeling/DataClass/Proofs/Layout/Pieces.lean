import DataClass.Proofs.Grammar.Yield
import DataClass.Proofs.Token.Fragment
namespace DataClass

/-! Fragments put together: lists with commas, paths, and what stands in parentheses. -/

namespace TokenKind

def Lexical (kinds : List TokenKind) : Prop := ∀ kind ∈ kinds, kind.IsLexical

theorem Lexical.left {first second : List TokenKind} (lexical : Lexical (first ++ second)) :
    Lexical first := fun kind inside => lexical kind (List.mem_append_left _ inside)

theorem Lexical.right {first second : List TokenKind} (lexical : Lexical (first ++ second)) :
    Lexical second := fun kind inside => lexical kind (List.mem_append_right _ inside)

theorem Lexical.head {kind : TokenKind} {kinds : List TokenKind}
    (lexical : Lexical (kind :: kinds)) : kind.IsLexical := lexical kind List.mem_cons_self

theorem Lexical.tail {kind : TokenKind} {kinds : List TokenKind}
    (lexical : Lexical (kind :: kinds)) : Lexical kinds :=
  fun other inside => lexical other (List.mem_cons_of_mem _ inside)

theorem Lexical.afterCommas {parts : List (List TokenKind)} (lexical : Lexical (afterCommas parts)) :
    ∀ part ∈ parts, Lexical part := by
  intro part listed kind inside
  exact lexical kind (List.mem_flatMap.mpr ⟨part, listed, List.mem_cons_of_mem _ inside⟩)

theorem Lexical.separated {parts : List (List TokenKind)} (lexical : Lexical (separated parts)) :
    ∀ part ∈ parts, Lexical part := by
  cases parts with
  | nil => simp
  | cons first rest =>
      exact List.forall_mem_cons.mpr ⟨lexical.left, lexical.right.afterCommas⟩

theorem Lexical.parenthesized {parts : List (List TokenKind)}
    (lexical : Lexical (parenthesized parts)) : ∀ part ∈ parts, Lexical part :=
  lexical.tail.left.separated

/-- Tokens that do not begin with an equals sign. -/
def Unequated (kinds : List TokenKind) : Prop :=
  ∀ kind ∈ kinds.head?, kind ≠ .operator .eq ∧ kind ≠ .operator .eqEq

theorem unequated_nil : Unequated [] := by simp [Unequated]

theorem unequated_cons {kind : TokenKind} (rest : List TokenKind) (eq : kind ≠ .operator .eq)
    (eqEq : kind ≠ .operator .eqEq) : Unequated (kind :: rest) := by
  simp [Unequated, eq, eqEq]

theorem Unequated.append {first second : List TokenKind} (here : Unequated first)
    (later : Unequated second) : Unequated (first ++ second) := by
  cases first with
  | nil => exact later
  | cons kind rest => simpa [Unequated] using here

theorem unequated_separated {parts : List (List TokenKind)}
    (each : ∀ part ∈ parts, Unequated part) : Unequated (separated parts) := by
  cases parts with
  | nil => exact unequated_nil
  | cons first rest =>
      refine (each first List.mem_cons_self).append ?_
      cases rest with
      | nil => exact unequated_nil
      | cons second rest => exact unequated_cons _ (by simp) (by simp)

theorem written_eq_operator {kind : TokenKind} {sign : Operator}
    (same : kind.written = .operator sign) : kind = .operator sign := by
  cases kind with
  | float value => simp only [written] at same; split at same <;> cases same
  | _ => exact same

end TokenKind

namespace Token

open TokenKind

variable {text : String} {kinds : List TokenKind}

theorem front_comma : Front ", " [.punctuation .comma] :=
  (front_punctuation .comma).append front_space

theorem parts_comma : Parts ", " :=
  show Parts (Punctuation.comma.spelling ++ " ") from (parts_punctuation .comma (by decide)).append

theorem fragment_separated {α : Type} {text : α → String} {kinds : α → List TokenKind}
    {values : List α} (each : ∀ value ∈ values, Fragment (text value) (kinds value)) :
    Fragment (", ".intercalate (values.map text)) (separated (values.map kinds)) := by
  induction values with
  | nil => exact front_empty.fragment
  | cons first rest ih =>
      obtain ⟨here, later⟩ := List.forall_mem_cons.mp each
      cases rest with
      | nil => simpa [separated, afterCommas] using here
      | cons second rest =>
          simp only [List.map_cons, String.intercalate_cons_cons]
          rw [String.append_assoc]
          exact here.before (fun others _ => parts_comma.append others)
            (front_comma.before (ih later))

theorem parts_path {path : List String} (some : path ≠ []) (lexical : Lexical (pathKinds path))
    (rest : List Char) : Parted ('.' :: ((".".intercalate path).toList ++ rest)) := by
  cases path with
  | nil => exact absurd rfl some
  | cons first path =>
      have valid := lexical.head.1
      cases path with
      | nil => simpa using parted_point valid rest
      | cons second path =>
          rw [String.intercalate_cons_cons, String.append_assoc, String.toList_append,
            List.append_assoc]
          exact parted_point valid _

theorem fragment_path {path : List String} (lexical : Lexical (pathKinds path)) :
    Fragment (".".intercalate path) (pathKinds path) := by
  induction path with
  | nil => exact front_empty.fragment
  | cons first path ih =>
      cases path with
      | nil => simpa [pathKinds, afterPoints] using fragment_identifier lexical.head
      | cons second path =>
          rw [String.intercalate_cons_cons, String.append_assoc]
          have later : Lexical (pathKinds (second :: path)) := lexical.tail.tail
          exact (fragment_identifier lexical.head).before
            (fun rest _ => by simpa using parts_path (by simp) later rest)
            ((front_punctuation .dot).before (ih later))

theorem front_parenthesized {text : String} {parts : List (List TokenKind)}
    (inside : Fragment text (separated parts)) :
    Front ("(" ++ text ++ ")") (parenthesized parts) := by
  have opened : Front "(" [.punctuation .leftParen] := front_punctuation .leftParen
  have closed : Front ")" [.punctuation .rightParen] := front_punctuation .rightParen
  rw [String.append_assoc]
  exact opened.append (inside.closed (parts_punctuation .rightParen (by decide)) closed)

theorem scanFrom_equals (position : Nat) (rest : List Char) :
    ∃ sign stop later, (sign = .eq ∨ sign = .eqEq) ∧
      (scanFrom position ('=' :: rest)).1 = ⟨.operator sign, ⟨position, stop⟩⟩ :: later := by
  rw [scanFrom, scanStep_visible rfl (by decide), scanVisible]
  by_cases double : rest.head? = some '='
  · simp only [operatorAt?, double, if_true]
    exact ⟨.eqEq, _, _, .inr rfl, rfl⟩
  · simp only [operatorAt?, double, if_false]
    exact ⟨.eq, _, _, .inl rfl, rfl⟩

theorem unequal_of_fragment (fragment : Fragment text kinds) (unequated : Unequated kinds) :
    Unequal text := by
  cases chars : text.toList with
  | nil =>
      intro rest parted
      rw [chars, List.nil_append]
      exact fun equals => parted.sign _ equals (by simp)
  | cons char others =>
      refine unequal_of_chars chars ?_
      rintro rfl
      obtain ⟨tokens, read, same⟩ :=
        fragment [] [.endOfFile] ⟨by simp, by simp, rfl⟩ spells_nil 0
      obtain ⟨sign, stop, later, equals, found⟩ := scanFrom_equals 0 (others ++ [])
      rw [chars, List.cons_append] at read
      rw [read] at found
      obtain rfl : tokens = _ := found
      cases kinds with
      | nil => simp at same
      | cons kind kinds =>
          simp only [List.map_cons, List.cons_append, List.cons.injEq] at same
          have comparison := written_eq_operator same.1.symm
          have other := unequated kind rfl
          rcases equals with rfl | rfl
          · exact other.1 comparison
          · exact other.2 comparison

theorem Fragment.point {text name : String} {kinds : List TokenKind}
    (fragment : Fragment text kinds) (lexical : (TokenKind.identifier name).IsLexical) :
    Fragment (text ++ "." ++ name) (kinds ++ [.punctuation .dot, .identifier name]) := by
  rw [String.append_assoc]
  exact fragment.before (fun rest _ => by simpa using parted_point lexical.1 rest)
    ((front_punctuation .dot).before (fragment_identifier lexical))

theorem Fragment.parenthesized {text inside : String} {kinds : List TokenKind}
    {parts : List (List TokenKind)} (fragment : Fragment text kinds)
    (arguments : Fragment inside (separated parts)) :
    Fragment (text ++ "(" ++ inside ++ ")") (kinds ++ parenthesized parts) := by
  have opens : Parts "(" := parts_of_chars rfl rfl (by decide)
  have parts : Parts ("(" ++ inside ++ ")") := opens.append.append
  have same : text ++ "(" ++ inside ++ ")" = text ++ ("(" ++ inside ++ ")") := by
    simp only [String.append_assoc]
  rw [same]
  exact (fragment.closed parts (front_parenthesized arguments)).fragment

theorem fragment_angled {text : String} {parts : List (List TokenKind)} (some : parts ≠ [])
    (inside : Fragment text (separated parts)) (unequated : ∀ part ∈ parts, Unequated part) :
    Fragment ("<" ++ (text ++ ">")) (angled parts) := by
  rw [angled_of_some some]
  have closed : Fragment ">" [.operator .gt] := fragment_operator .gt
  have behind : Fragment (text ++ ">") (separated parts ++ [.operator .gt]) :=
    inside.before (fun rest _ => parted_cons rest rfl (by decide)) closed
  intro rest later parted spelled
  have unequal : Unequal (text ++ ">") :=
    unequal_of_fragment behind ((unequated_separated unequated).append
      (unequated_cons _ (by decide) (by decide)))
  rw [String.toList_append, List.append_assoc]
  exact (behind rest later parted spelled).operator .lt (unequal rest parted) nofun

end Token

end DataClass
