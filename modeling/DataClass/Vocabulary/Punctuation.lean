import DataClass.Vocabulary.Release
namespace DataClass

/-! Punctuation marks. -/

inductive Punctuation where
  | comma | colon | semicolon
  | at
  | dot
  | leftParen | rightParen
  | leftBracket | rightBracket
  | leftBrace | rightBrace
deriving DecidableEq

inductive PunctuationCategory where
  | delimiter
  | separator
  | access
  | marker
deriving DecidableEq

def PunctuationCategory.name : PunctuationCategory → String
  | .delimiter => "Delimiter"
  | .separator => "Separator"
  | .access => "Access"
  | .marker => "Marker"

namespace Punctuation

/-- Every punctuation mark, in the order of the reference table. -/
def all : List Punctuation :=
  [.comma, .colon, .semicolon, .at, .dot, .leftParen, .rightParen,
   .leftBracket, .rightBracket, .leftBrace, .rightBrace]

/-- The name under which the reference table lists the mark. -/
def name : Punctuation → String
  | .comma => "Comma"
  | .colon => "Colon"
  | .semicolon => "Semicolon"
  | .at => "At"
  | .dot => "Dot"
  | .leftParen => "LParen"
  | .rightParen => "RParen"
  | .leftBracket => "LBracket"
  | .rightBracket => "RBracket"
  | .leftBrace => "LBrace"
  | .rightBrace => "RBrace"

def mark : Punctuation → Char
  | .comma => ','
  | .colon => ':'
  | .semicolon => ';'
  | .at => '@'
  | .dot => '.'
  | .leftParen => '('
  | .rightParen => ')'
  | .leftBracket => '['
  | .rightBracket => ']'
  | .leftBrace => '\x7b'
  | .rightBrace => '\x7d'

def spelling (punctuation : Punctuation) : String :=
  String.singleton punctuation.mark

def category : Punctuation → PunctuationCategory
  | .comma | .colon | .semicolon => .separator
  | .at => .marker
  | .dot => .access
  | _ => .delimiter

def introduced (_ : Punctuation) : Release := .initial

def stability (_ : Punctuation) : Stability := .stable

def ofMark? (mark : Char) : Option Punctuation :=
  all.find? (·.mark == mark)

def ofSpelling? (spelling : String) : Option Punctuation :=
  all.find? (·.spelling == spelling)

end Punctuation

end DataClass
