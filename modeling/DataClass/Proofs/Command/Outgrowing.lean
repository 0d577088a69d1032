import DataClass.Proofs.Command.Contents
import DataClass.Proofs.Layout.Reformatting
namespace DataClass.Command

/-! Files at the limit of size. Formatting can make a text longer, so that a file that can be read is
written as one that cannot. -/

open Layout TokenKind

/-- A string of so many letters. -/
def letters (count : Nat) : String := .ofList (List.replicate count 'a')

/-- A class with one field, the value of which is a string of so many letters. -/
def letterClass (count : Nat) : Program :=
  ⟨[.type .origin ⟨[], false, "A",
    [.field .origin ⟨[], false, "x", none, some (.string .origin (letters count))⟩]⟩]⟩

theorem writable_letterClass (count : Nat) : (letterClass count).Writable := by
  constructor
  · refine List.forall_mem_singleton.mpr ⟨nofun, List.forall_mem_singleton.mpr (.field _ ?_)⟩
    exact ⟨nofun, nofun, fun | _, rfl => .string .origin _⟩
  · simp [letterClass, Program.kinds, Declaration.kinds, Class.kinds, Member.kindsAll, Member.kinds,
      Field.bareKinds, modifiers, Tag.kindsAll, visibility, TypeRef.colonKinds, Expr.equalsKinds,
      Expr.kinds, IsLexical]
    decide

theorem size_replicate (count : Nat) {char : Char} (narrow : char.utf8Size = 1) :
    (String.ofList (List.replicate count char)).utf8ByteSize = count := by
  induction count with
  | zero => rfl
  | succ count ih =>
      rw [List.replicate_succ, String.ofList_cons, String.utf8ByteSize_append, ih,
        String.utf8ByteSize_singleton, narrow, Nat.add_comm]

theorem size_letters (quote : Quote) (count : Nat) :
    (stringText quote (letters count)).utf8ByteSize = count + 2 := by
  have plain : escapeChar quote.mark 'a' = ['a'] := by cases quote <;> rfl
  have marks : quote.mark.utf8Size = 1 := by cases quote <;> rfl
  have kept : escapeChars quote.mark (letters count).toList = List.replicate count 'a' := by
    rw [letters, String.toList_ofList, escapeChars, List.flatMap_replicate, plain]
    simp
  rw [stringText, kept, List.cons_append, String.ofList_cons, String.ofList_append,
    String.utf8ByteSize_append, String.utf8ByteSize_append, size_replicate count rfl]
  simp [marks]
  omega

/-- Every level of depth costs as many bytes as it is wide. -/
theorem size_letterClass (style : Style) (count : Nat) :
    ((letterClass count).text style).utf8ByteSize = count + 20 + style.indentWidth := by
  have text : (letterClass count).text style = "class A \x7b\n" ++
      (.ofList (List.replicate style.indentWidth ' ') ++
        ("x" ++ (" = " ++ stringText style.quote (letters count)) ++ ";") ++ "\n" ++ "\x7d\n") := by
    simp [letterClass, Program.text, declarationsLines, declarationGap, declarationLines, classLines,
      tagLines, visibilityText, Line.block, Line.enclose, membersLines, memberGap, memberLines,
      fieldLines, typeSuffix, valueSuffix, exprText, Line.renderAll, Line.render, Line.plain,
      Line.indent]
  have sizes : "class A \x7b\n".utf8ByteSize = 10 ∧ "x".utf8ByteSize = 1 ∧ " = ".utf8ByteSize = 3 ∧
      ";".utf8ByteSize = 1 ∧ "\n".utf8ByteSize = 1 ∧ "\x7d\n".utf8ByteSize = 2 := by decide
  simp only [text, String.utf8ByteSize_append, size_replicate _ (rfl : ' '.utf8Size = 1), size_letters,
    sizes]
  omega

/-- The style that leaves no space in front of a line. -/
def tight : Style := ⟨0, .double, 1, 1⟩

/-- A text that just can be read is formatted to one that cannot. -/
theorem size_letterClass_of_full {count : Nat} (full : count + 20 = sizeLimit) :
    ((letterClass count).text tight).utf8ByteSize = sizeLimit ∧
      sizeLimit < ((letterClass count).text .standard).utf8ByteSize := by
  simp only [size_letterClass, full, tight, Style.standard]
  omega

theorem text_letterClass_ne (count : Nat) :
    (letterClass count).text tight ≠ (letterClass count).text .standard := by
  intro same
  have sizes := congrArg String.utf8ByteSize same
  simp only [size_letterClass, tight, Style.standard] at sizes
  omega

theorem read_letterClass {count : Nat} (fits : count + 20 ≤ sizeLimit) :
    (Content.ofText ((letterClass count).text tight)).read = .ok ((letterClass count).text tight) :=
  Content.read_eq_ok_iff.mpr ⟨(size_letterClass tight count).trans_le fits, rfl⟩

end DataClass.Command
