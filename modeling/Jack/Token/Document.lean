import Jack.Token

namespace Jack.Token

/-- A character as text between tags. Four characters have to be written by name. -/
def escapeChar : Char → List Char
  | '<' => "&lt;".toList
  | '>' => "&gt;".toList
  | '"' => "&quot;".toList
  | '&' => "&amp;".toList
  | c => [c]

def escape (text : String) : String :=
  String.ofList (text.toList.flatMap escapeChar)

/-- What stands between the tags of a token: the value of a constant that has one, and otherwise
the lexeme. -/
def documentText (token : Token) : String :=
  match token.kind, token.literal with
  | .integer, some (.number value) => toString value
  | .string, some (.text value) => escape value
  | _, _ => escape token.lexeme

def documentLine (token : Token) : String :=
  s!"<{token.kind.category}>{token.documentText}</{token.kind.category}>\n"

def document (tokens : List Token) : String :=
  tokens.foldl (fun text token => text ++ token.documentLine) "<tokens>\n" ++ "</tokens>\n"

end Jack.Token
