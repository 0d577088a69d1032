import DataClass.Vocabulary.Release
namespace DataClass

/-! Reserved words.

A word has one canonical spelling, which is the one that is written, and possibly further
spellings that are read as the same word. Spelling is case-sensitive.
-/

inductive Keyword where
  | ifWord | elseWord | whileWord | returnWord | letWord
  | classWord | fnWord | newWord | initWord | importWord
  | pubWord | privWord
  | thisWord | voidWord
  | trueWord | falseWord | nullWord
deriving DecidableEq

inductive KeywordCategory where
  | controlFlow
  | definition
  | modifier
  | receiver
  | literal
deriving DecidableEq

def KeywordCategory.name : KeywordCategory → String
  | .controlFlow => "ControlFlow"
  | .definition => "Definition"
  | .modifier => "Modifier"
  | .receiver => "Receiver"
  | .literal => "Literal"

namespace Keyword

/-- Every reserved word, in the order of the reference table. -/
def all : List Keyword :=
  [.ifWord, .elseWord, .whileWord, .returnWord, .letWord,
   .classWord, .fnWord, .newWord, .initWord, .importWord,
   .pubWord, .privWord, .thisWord, .voidWord,
   .trueWord, .falseWord, .nullWord]

/-- The name under which the reference table lists the word. -/
def name : Keyword → String
  | .ifWord => "If"
  | .elseWord => "Else"
  | .whileWord => "While"
  | .returnWord => "Return"
  | .letWord => "Let"
  | .classWord => "Class"
  | .fnWord => "Fn"
  | .newWord => "New"
  | .initWord => "Init"
  | .importWord => "Import"
  | .pubWord => "Pub"
  | .privWord => "Priv"
  | .thisWord => "This"
  | .voidWord => "Void"
  | .trueWord => "True"
  | .falseWord => "False"
  | .nullWord => "Null"

/-- The spelling that is written. -/
def canonical : Keyword → String
  | .ifWord => "if"
  | .elseWord => "else"
  | .whileWord => "while"
  | .returnWord => "return"
  | .letWord => "let"
  | .classWord => "class"
  | .fnWord => "fn"
  | .newWord => "new"
  | .initWord => "init"
  | .importWord => "import"
  | .pubWord => "pub"
  | .privWord => "priv"
  | .thisWord => "this"
  | .voidWord => "void"
  | .trueWord => "true"
  | .falseWord => "false"
  | .nullWord => "null"

/-- Further spellings that are read as the same word. -/
def aliases : Keyword → List String
  | .letWord => ["var"]
  | .pubWord => ["public"]
  | .privWord => ["private"]
  | .thisWord => ["self"]
  | _ => []

def category : Keyword → KeywordCategory
  | .ifWord | .elseWord | .whileWord | .returnWord | .letWord => .controlFlow
  | .classWord | .fnWord | .newWord | .initWord | .importWord => .definition
  | .pubWord | .privWord => .modifier
  | .thisWord | .voidWord => .receiver
  | .trueWord | .falseWord | .nullWord => .literal

def introduced (_ : Keyword) : Release := .initial

def stability (_ : Keyword) : Stability := .stable

/-- The word with a spelling, if the spelling is reserved. -/
def ofSpelling? (spelling : String) : Option Keyword :=
  match all.find? (·.canonical == spelling) with
  | some keyword => some keyword
  | none => all.find? (·.aliases.contains spelling)

end Keyword

end DataClass
