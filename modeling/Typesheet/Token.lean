import Typesheet.Position

/-! Tokens: the words a stylesheet is read in. -/
namespace Typesheet

/-- What a token is for the grammar. -/
inductive Kind where
  | eof
  | identifier
  | color
  | pixel
  | percentage
  | scalar
  | idSelector
  | classSelector
  | openBracket
  | closeBracket
  | openCurly
  | closeCurly
  | openParen
  | closeParen
  | assignment
  | colon
  | semicolon
  | comma
  | plus
  | dash
  | star
  | ifWord
  | elseWord
  | trueWord
  | falseWord
deriving DecidableEq, Repr, Inhabited

namespace Kind

/-- The name a kind is shown by. -/
def name : Kind → String
  | eof => "EOF"
  | identifier => "Identifier"
  | color => "Color"
  | pixel => "Pixel"
  | percentage => "Percentage"
  | scalar => "Scalar"
  | idSelector => "IdSelector"
  | classSelector => "ClassSelector"
  | openBracket => "OpenBracket"
  | closeBracket => "CloseBracket"
  | openCurly => "OpenCurly"
  | closeCurly => "CloseCurly"
  | openParen => "OpenParen"
  | closeParen => "CloseParen"
  | assignment => "Assignment"
  | colon => "Colon"
  | semicolon => "Semicolon"
  | comma => "Comma"
  | plus => "Plus"
  | dash => "Dash"
  | star => "Star"
  | ifWord => "If"
  | elseWord => "Else"
  | trueWord => "True"
  | falseWord => "False"

/-- Every kind, once. -/
def all : List Kind :=
  [eof, identifier, color, pixel, percentage, scalar, idSelector, classSelector,
    openBracket, closeBracket, openCurly, closeCurly, openParen, closeParen,
    assignment, colon, semicolon, comma, plus, dash, star,
    ifWord, elseWord, trueWord, falseWord]

theorem mem_all (k : Kind) : k ∈ all := by
  cases k <;> decide

/-- The kind shown by a name. -/
def ofName? (name : String) : Option Kind := all.find? (·.name == name)

end Kind

/-- A piece of source text with its kind and where it stands. -/
structure Token where
  kind : Kind
  value : String
  span : Span
deriving DecidableEq, Repr, Inhabited

namespace Token

/-- The token that closes every token list: it stands at one place and takes no
text, so its value only names it. -/
def closing (place : Position) : Token := ⟨.eof, "EOF", ⟨place, place⟩⟩

/-- How a token is shown. -/
def text (t : Token) : String :=
  "Token \x7b\nkind: " ++ t.kind.name ++ ",\nvalue: " ++ t.value ++ "\x7d"

end Token

end Typesheet
