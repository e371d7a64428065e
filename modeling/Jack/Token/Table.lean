import Jack.Token

namespace Jack.Token

/-- A text with blanks behind it up to a width. -/
def padded (width : Nat) (text : String) : String :=
  text.pushn ' ' (width - text.length)

def tableLine (place kind fragment : String) : String :=
  s!"{padded 8 place} | {padded 20 kind} | {fragment}\n"

/-- The table of tokens that come from a source text. Their lexemes are the pieces under their
spans. -/
def table (tokens : List Token) : String :=
  tokens.foldl
    (fun text token =>
      text ++ tableLine s!"{token.line}:{token.startColumn}" token.kind.label token.lexeme)
    (tableLine "line:col" "token" "fragment ")

end Jack.Token
