namespace Jack

inductive Keyword where
  | kwClass
  | kwConstructor
  | kwFunction
  | kwMethod
  | kwField
  | kwStatic
  | kwVar
  | kwInt
  | kwChar
  | kwBoolean
  | kwVoid
  | kwTrue
  | kwFalse
  | kwNull
  | kwThis
  | kwLet
  | kwDo
  | kwIf
  | kwElse
  | kwWhile
  | kwReturn
deriving DecidableEq, Repr

namespace Keyword

def all : List Keyword :=
  [kwClass, kwConstructor, kwFunction, kwMethod, kwField, kwStatic, kwVar, kwInt, kwChar,
   kwBoolean, kwVoid, kwTrue, kwFalse, kwNull, kwThis, kwLet, kwDo, kwIf, kwElse, kwWhile,
   kwReturn]

theorem mem_all (word : Keyword) : word ∈ all := by
  cases word <;> decide

def text : Keyword → String
  | kwClass => "class"
  | kwConstructor => "constructor"
  | kwFunction => "function"
  | kwMethod => "method"
  | kwField => "field"
  | kwStatic => "static"
  | kwVar => "var"
  | kwInt => "int"
  | kwChar => "char"
  | kwBoolean => "boolean"
  | kwVoid => "void"
  | kwTrue => "true"
  | kwFalse => "false"
  | kwNull => "null"
  | kwThis => "this"
  | kwLet => "let"
  | kwDo => "do"
  | kwIf => "if"
  | kwElse => "else"
  | kwWhile => "while"
  | kwReturn => "return"

/-- The word that a text spells. Letter case counts. -/
def ofText? (text : String) : Option Keyword :=
  all.find? fun word => word.text == text

/-- Reading undoes writing, so no two words are spelt alike. -/
theorem ofText?_text (word : Keyword) : ofText? word.text = some word := by
  cases word <;> decide

end Keyword

inductive Symbol where
  | leftBrace
  | rightBrace
  | leftParen
  | rightParen
  | leftBracket
  | rightBracket
  | dot
  | comma
  | semicolon
  | plus
  | minus
  | star
  | slash
  | amp
  | pipe
  | less
  | greater
  | eq
  | tilde
deriving DecidableEq, Repr

namespace Symbol

def all : List Symbol :=
  [leftBrace, rightBrace, leftParen, rightParen, leftBracket, rightBracket, dot, comma, semicolon,
   plus, minus, star, slash, amp, pipe, less, greater, eq, tilde]

theorem mem_all (symbol : Symbol) : symbol ∈ all := by
  cases symbol <;> decide

def char : Symbol → Char
  | leftBrace => '{'
  | rightBrace => '}'
  | leftParen => '('
  | rightParen => ')'
  | leftBracket => '['
  | rightBracket => ']'
  | dot => '.'
  | comma => ','
  | semicolon => ';'
  | plus => '+'
  | minus => '-'
  | star => '*'
  | slash => '/'
  | amp => '&'
  | pipe => '|'
  | less => '<'
  | greater => '>'
  | eq => '='
  | tilde => '~'

def name : Symbol → String
  | leftBrace => "LeftBrace"
  | rightBrace => "RightBrace"
  | leftParen => "LeftParen"
  | rightParen => "RightParen"
  | leftBracket => "LeftBracket"
  | rightBracket => "RightBracket"
  | dot => "Dot"
  | comma => "Comma"
  | semicolon => "Semicolon"
  | plus => "Plus"
  | minus => "Minus"
  | star => "Star"
  | slash => "Slash"
  | amp => "Amp"
  | pipe => "Pipe"
  | less => "Less"
  | greater => "Greater"
  | eq => "Eq"
  | tilde => "Tilde"

def ofChar? (c : Char) : Option Symbol :=
  all.find? fun symbol => symbol.char == c

/-- Reading undoes writing, so no two symbols look alike. -/
theorem ofChar?_char (symbol : Symbol) : ofChar? symbol.char = some symbol := by
  cases symbol <;> decide

end Symbol

end Jack
