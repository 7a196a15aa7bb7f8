set_option autoImplicit false

namespace McFront

inductive Punctuation where
  | leftBrace | rightBrace | leftParen | rightParen | leftBracket | rightBracket
  | comma | semicolon | colon
  | arrow
deriving DecidableEq

namespace Punctuation

def all : List Punctuation :=
  [leftBrace, rightBrace, leftParen, rightParen, leftBracket, rightBracket,
    comma, semicolon, colon, arrow]

def spelling : Punctuation → String
  | leftBrace => "\x7b"
  | rightBrace => "\x7d"
  | leftParen => "("
  | rightParen => ")"
  | leftBracket => "["
  | rightBracket => "]"
  | comma => ","
  | semicolon => ";"
  | colon => ":"
  | arrow => "->"

def name : Punctuation → String
  | leftBrace => "left-brace"
  | rightBrace => "right-brace"
  | leftParen => "left-paren"
  | rightParen => "right-paren"
  | leftBracket => "left-bracket"
  | rightBracket => "right-bracket"
  | comma => "comma"
  | semicolon => "semicolon"
  | colon => "colon"
  | arrow => "arrow"

inductive Group where
  | delimiter | separator | arrow
deriving DecidableEq

def Group.name : Group → String
  | delimiter => "Delimiter"
  | separator => "Separator"
  | arrow => "Arrow"

def group : Punctuation → Group
  | comma | semicolon | colon => .separator
  | arrow => .arrow
  | _ => .delimiter

def ofSpelling? (text : String) : Option Punctuation := all.find? (·.spelling == text)

end Punctuation
end McFront
