import DataClass.Proofs.Token.Spelling
namespace DataClass

namespace TokenKind

/-- What stands for some text, and can be found there. -/
def IsFound (kind : TokenKind) : Prop := kind.IsLexical ∧ kind ≠ .endOfFile

end TokenKind

namespace Token

/-! What is known about the tokens of a text: each of them is one that the scanner can find, and the
last one alone marks the end. -/

theorem isFound_scanNumber {start : Nat} {chars : List Char} {kind : TokenKind}
    (found : (scanNumber start chars).token = some kind) : kind.IsFound := by
  unfold scanNumber at found
  dsimp only at found
  split at found
  · obtain rfl := Option.some.inj found
    exact ⟨Binary64.isLiteral_ofQuotient _ _, nofun⟩
  · split at found
    · next bound =>
        obtain rfl := Option.some.inj found
        exact ⟨⟨_, bound, rfl⟩, nofun⟩
    · cases found

theorem isFound_wordKind {name : String} (valid : isIdentifier name = true) :
    (wordKind name).IsFound := by
  unfold wordKind
  cases reserved : Keyword.ofSpelling? name with
  | some word => exact ⟨trivial, nofun⟩
  | none => exact ⟨⟨valid, reserved⟩, nofun⟩

theorem isIdentifier_takeWhile {char : Char} (start : isIdentifierStart char = true)
    (rest : List Char) :
    isIdentifier (String.ofList ((char :: rest).takeWhile isIdentifierRest)) = true := by
  simp [isIdentifier, isIdentifierChars, isIdentifierRest_of_start start, start]

theorem isFound_scanVisible {start : Nat} {char : Char} {rest : List Char} {kind : TokenKind}
    (found : (scanVisible start char rest).token = some kind) : kind.IsFound := by
  unfold scanVisible at found
  split at found
  · obtain rfl := Option.some.inj found
    exact ⟨trivial, nofun⟩
  · obtain rfl := Option.some.inj found
    exact ⟨trivial, nofun⟩
  · split at found
    · obtain rfl := Option.some.inj found
      exact ⟨trivial, nofun⟩
    · split at found
      · unfold scanString at found
        dsimp only at found
        split at found
        · obtain rfl := Option.some.inj found
          exact ⟨trivial, nofun⟩
        · cases found
      · split at found
        · exact isFound_scanNumber found
        · split at found
          · next letter =>
              obtain rfl := Option.some.inj found
              exact isFound_wordKind (isIdentifier_takeWhile letter rest)
          · cases found

theorem isFound_scanStep {start : Nat} {char : Char} {rest : List Char} {kind : TokenKind}
    (found : (scanStep start char rest).token = some kind) : kind.IsFound := by
  unfold scanStep at found
  split at found
  · cases found
  · split at found
    · cases found
    · unfold scanBlockComment at found
      split at found <;> cases found
    · exact isFound_scanVisible found

theorem exists_front_of_scanFrom (position : Nat) (chars : List Char) :
    ∃ front last, (scanFrom position chars).1 = front ++ [last] ∧ last.kind = .endOfFile ∧
      ∀ token ∈ front, token.kind.IsFound := by
  fun_induction scanFrom position chars with
  | case1 position => exact ⟨[], _, rfl, rfl, nofun⟩
  | case2 position char rest lexeme later ih =>
      obtain ⟨front, last, read, ended, inside⟩ := ih
      refine ⟨lexeme.tokens position ++ front, last, ?_, ended, ?_⟩
      · rw [List.append_assoc, ← read]
      · refine List.forall_mem_append.mpr ⟨fun token here => ?_, inside⟩
        cases found : lexeme.token with
        | none => simp [Lexeme.tokens, found] at here
        | some kind =>
            obtain rfl : token = ⟨kind, ⟨position, lexeme.stop⟩⟩ := by
              simpa [Lexeme.tokens, found] using here
            exact isFound_scanStep found

/-- The tokens of a text, and behind them the one that marks the end. -/
theorem exists_front_of_scan {source : String} {tokens : List Token}
    (read : scan source = .ok tokens) :
    ∃ front last, tokens = front ++ [last] ∧ last.kind = .endOfFile ∧
      ∀ token ∈ front, token.kind.IsFound := by
  have all := exists_front_of_scanFrom 0 source.toList
  unfold scan at read
  split at read
  · next found =>
      cases read
      rwa [found] at all
  · cases read

theorem isLexical_scan {source : String} {tokens : List Token} (read : scan source = .ok tokens) :
    ∀ token ∈ tokens, token.kind.IsLexical := by
  obtain ⟨front, last, rfl, ended, inside⟩ := exists_front_of_scan read
  refine List.forall_mem_append.mpr ⟨fun token here => (inside token here).1, ?_⟩
  rw [List.forall_mem_singleton, ended]
  trivial

/-- A text that is known to be cut into tokens of some kinds is cut into such tokens. -/
theorem scan_of_spells {source : String} {kinds : List TokenKind}
    (spelled : Spells source.toList kinds) :
    ∃ tokens, scan source = .ok tokens ∧ tokens.map Token.kind = kinds := by
  obtain ⟨tokens, read, same⟩ := spelled 0
  exact ⟨tokens, by rw [scan, read], same⟩

end Token

end DataClass
