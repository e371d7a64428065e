import Jack.Keyword
import Jack.Position

namespace Jack

inductive Token.Kind where
  | keyword (word : Keyword)
  | symbol (mark : Symbol)
  | identifier
  | integer
  | string
deriving DecidableEq, Repr

namespace Token.Kind

/-- How a message speaks of a kind. -/
def describe : Token.Kind → String
  | keyword word => "'" ++ word.text ++ "'"
  | symbol mark => "'" ++ mark.char.toString ++ "'"
  | identifier => "identifier"
  | integer => "integer constant"
  | string => "string constant"

/-- The name of a kind in a token table. -/
def label : Token.Kind → String
  | keyword word => "Keyword(" ++ word.text.capitalize ++ ")"
  | symbol mark => "Symbol(" ++ mark.name ++ ")"
  | identifier => "Ident"
  | integer => "Integer"
  | string => "String"

/-- The tag of a kind in a token document. -/
def category : Token.Kind → String
  | keyword _ => "keyword"
  | symbol _ => "symbol"
  | identifier => "identifier"
  | integer => "integerConstant"
  | string => "stringConstant"

end Token.Kind

/-- The value that a constant stands for. -/
inductive Literal where
  | number (value : Nat)
  | text (value : String)
deriving DecidableEq, Repr

/-- A token and its place. The last column is that of its last character. A token carries its own
kind, lexeme and value, which need not agree when it does not come from a source text. -/
structure Token where
  kind : Token.Kind
  lexeme : String
  literal : Option Literal
  span : Span
  line : Nat
  startColumn : Nat
  endColumn : Nat
deriving DecidableEq, Repr

end Jack
