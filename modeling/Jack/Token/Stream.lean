import Jack.Token

namespace Jack

/-- A token other than the expected one. `found` is missing at the end of the tokens. -/
structure SyntaxError where
  line : Nat
  column : Nat
  found : Option String
  expected : String
deriving DecidableEq, Repr

def SyntaxError.message (error : SyntaxError) : String :=
  match error.found with
  | some lexeme => s!"[line {error.line}] error at '{lexeme}': expected {error.expected}"
  | none => s!"[line {error.line}] error at end of file: expected {error.expected}"

/-- How a message speaks of a choice between kinds. -/
def Token.Kind.describeAny (kinds : List Token.Kind) : String :=
  "one of " ++ ", ".intercalate (kinds.map describe)

/-- Tokens with a cursor. Those already taken come last taken first. -/
structure TokenStream where
  taken : List Token
  rest : List Token
deriving DecidableEq, Repr

namespace TokenStream

def ofTokens (tokens : List Token) : TokenStream :=
  ⟨[], tokens⟩

def atEnd (stream : TokenStream) : Bool :=
  stream.rest.isEmpty

def previous? (stream : TokenStream) : Option Token :=
  stream.taken.head?

def peek? (stream : TokenStream) : Option Token :=
  stream.rest.head?

def peekKind? (stream : TokenStream) : Option Token.Kind :=
  stream.peek?.map Token.kind

def check (stream : TokenStream) (kind : Token.Kind) : Bool :=
  stream.peekKind? == some kind

/-- Takes the next token. -/
def next? (stream : TokenStream) : Option (Token × TokenStream) :=
  match stream.rest with
  | [] => none
  | token :: rest => some (token, ⟨token :: stream.taken, rest⟩)

/-- Moves past the next token if there is one. -/
def advance (stream : TokenStream) : TokenStream :=
  match stream.next? with
  | some (_, stream) => stream
  | none => stream

/-- Whether the next token is of a kind. It is taken if it is. -/
def accept (stream : TokenStream) (kind : Token.Kind) : Bool × TokenStream :=
  if stream.check kind then (true, stream.advance) else (false, stream)

/-- The error that something else was expected here: at the next token, or behind the last one
when all are taken. A stream without tokens ends on line one, column one. -/
def unexpected (stream : TokenStream) (expected : String) : SyntaxError :=
  match stream.peek?, stream.previous? with
  | some token, _ => ⟨token.line, token.startColumn, some token.lexeme, expected⟩
  | none, some last => ⟨last.line, last.endColumn, none, expected⟩
  | none, none => ⟨1, 1, none, expected⟩

/-- Takes a token of a kind, or stays where it is. -/
def consume (stream : TokenStream) (kind : Token.Kind) : Except SyntaxError (Token × TokenStream) :=
  match stream.next? with
  | some (token, stream') =>
    if token.kind = kind then .ok (token, stream') else .error (stream.unexpected kind.describe)
  | none => .error (stream.unexpected kind.describe)

/-- Takes a token of one of some kinds, or stays where it is. -/
def consumeAny (stream : TokenStream) (kinds : List Token.Kind) :
    Except SyntaxError (Token × TokenStream) :=
  match stream.next? with
  | some (token, stream') =>
    if token.kind ∈ kinds then .ok (token, stream')
    else .error (stream.unexpected (Token.Kind.describeAny kinds))
  | none => .error (stream.unexpected (Token.Kind.describeAny kinds))

end TokenStream

end Jack
