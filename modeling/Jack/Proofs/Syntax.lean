import Jack.Grammar.Action

namespace Jack

/-- What a token stands for in a class, wherever it is placed. The value of an integer is missing
where a word cannot hold it, and a string without a text is empty. -/
inductive Terminal where
  | keyword (word : Keyword)
  | symbol (mark : Symbol)
  | name (text : String)
  | integer (value : Option Nat)
  | string (text : String)
deriving DecidableEq, Repr

def Literal.number? : Literal → Option Nat
  | number value => some value
  | text _ => none

def Literal.text? : Literal → Option String
  | number _ => none
  | text value => some value

def Token.terminal (token : Token) : Terminal :=
  match token.kind with
  | .keyword word => .keyword word
  | .symbol mark => .symbol mark
  | .identifier => .name token.lexeme
  | .integer => .integer (token.literal.bind Literal.number?)
  | .string => .string ((token.literal.bind Literal.text?).getD "")

/-- A keyword is written as itself, which tokens that come from no source text need not obey. -/
def Token.WellSpelt (token : Token) : Prop :=
  ∀ word, token.kind = .keyword word → token.lexeme = word.text

/-- The kind, the text and the value of a token for a terminal. Only numbers are written in the
usual way, since nothing reads the text of a string. -/
def Terminal.token (terminal : Terminal) : Token :=
  let made (kind : Token.Kind) (lexeme : String) (literal : Option Literal) : Token :=
    ⟨kind, lexeme, literal, ⟨0, 0⟩, 1, 1, 1⟩
  match terminal with
  | keyword word => made (.keyword word) word.text none
  | symbol mark => made (.symbol mark) mark.char.toString none
  | name text => made .identifier text none
  | integer value => made .integer ((value.map toString).getD "") (value.map .number)
  | string text => made .string text (some (.text text))

theorem Terminal.terminal_token (terminal : Terminal) : terminal.token.terminal = terminal := by
  cases terminal with
  | integer value => cases value <;> rfl
  | _ => rfl

theorem Terminal.wellSpelt_token (terminal : Terminal) : terminal.token.WellSpelt := by
  intro word kind
  cases terminal <;> cases kind
  rfl

inductive BinaryOperator where
  | add
  | subtract
  | multiply
  | divide
  | and
  | or
  | less
  | greater
  | equal
deriving DecidableEq, Repr

def BinaryOperator.mark : BinaryOperator → Symbol
  | add => .plus
  | subtract => .minus
  | multiply => .star
  | divide => .slash
  | and => .amp
  | or => .pipe
  | less => .less
  | greater => .greater
  | equal => .eq

inductive UnaryOperator where
  | negate
  | complement
deriving DecidableEq, Repr

def UnaryOperator.mark : UnaryOperator → Symbol
  | negate => .minus
  | complement => .tilde

inductive KeywordConstant where
  | true
  | false
  | null
  | this
deriving DecidableEq, Repr

def KeywordConstant.word : KeywordConstant → Keyword
  | true => .kwTrue
  | false => .kwFalse
  | null => .kwNull
  | this => .kwThis

mutual

/-- A term, and the operators behind it with their terms. -/
inductive Expression where
  | mk (first : Term) (more : Operators)

inductive Operators where
  | done
  | more (operator : BinaryOperator) (operand : Term) (rest : Operators)

/-- A call names a subroutine, behind what it is called on if anything is written there. -/
inductive Term where
  | integer (value : Option Nat)
  | string (text : String)
  | constant (word : KeywordConstant)
  | variable (name : String)
  | element (name : String) (index : Expression)
  | call (qualifier : Option String) (callee : String) (arguments : Arguments)
  | parentheses (inner : Expression)
  | unary (operator : UnaryOperator) (operand : Term)

inductive Arguments where
  | done
  | more (first : Expression) (rest : Arguments)

end

deriving instance DecidableEq, Repr for Expression, Operators, Term, Arguments

mutual

inductive Statement where
  | setVariable (name : String) (value : Expression)
  | setElement (name : String) (index value : Expression)
  | ifThen (condition : Expression) (body : Statements)
  | ifElse (condition : Expression) (body otherwise : Statements)
  | loop (condition : Expression) (body : Statements)
  | doCall (qualifier : Option String) (callee : String) (arguments : Arguments)
  | returnNothing
  | returnValue (value : Expression)

inductive Statements where
  | done
  | more (first : Statement) (rest : Statements)

end

deriving instance DecidableEq, Repr for Statement, Statements

inductive TypeName where
  | int
  | char
  | boolean
  | named (name : String)
deriving DecidableEq, Repr

/-- Variables of one type, of which there is at least one. -/
structure Names where
  type : TypeName
  first : String
  more : List String
deriving DecidableEq, Repr

/-- The kinds of variables that a class declares outside its subroutines. -/
inductive ClassKind where
  | statics
  | field
deriving DecidableEq, Repr

structure ClassVariables where
  kind : ClassKind
  names : Names
deriving DecidableEq, Repr

structure Parameter where
  type : TypeName
  name : String
deriving DecidableEq, Repr

/-- A subroutine without a result type is void. -/
structure Subroutine where
  kind : SubroutineKind
  result : Option TypeName
  name : String
  parameters : List Parameter
  locals : List Names
  body : Statements
deriving DecidableEq, Repr

structure ClassTree where
  name : String
  classVariables : List ClassVariables
  subroutines : List Subroutine
deriving DecidableEq, Repr

/-- A list in parentheses, behind the name that is called. -/
def spellCall (qualifier : Option String) (callee : String) (arguments : List Terminal) :
    List Terminal :=
  match qualifier with
  | none => .name callee :: .symbol .leftParen :: (arguments ++ [.symbol .rightParen])
  | some name =>
    .name name :: .symbol .dot :: .name callee :: .symbol .leftParen ::
      (arguments ++ [.symbol .rightParen])

mutual

def Expression.yield : Expression → List Terminal
  | .mk first more => first.yield ++ more.yield

def Operators.yield : Operators → List Terminal
  | .done => []
  | .more operator operand rest => .symbol operator.mark :: (operand.yield ++ rest.yield)

def Term.yield : Term → List Terminal
  | .integer value => [.integer value]
  | .string text => [.string text]
  | .constant word => [.keyword word.word]
  | .variable name => [.name name]
  | .element name index =>
    .name name :: .symbol .leftBracket :: (index.yield ++ [.symbol .rightBracket])
  | .call qualifier callee arguments => spellCall qualifier callee arguments.yield
  | .parentheses inner => .symbol .leftParen :: (inner.yield ++ [.symbol .rightParen])
  | .unary operator operand => .symbol operator.mark :: operand.yield

def Arguments.yield : Arguments → List Terminal
  | .done => []
  | .more first rest => first.yield ++ rest.yieldMore

/-- Each argument behind the first follows a comma. -/
def Arguments.yieldMore : Arguments → List Terminal
  | .done => []
  | .more first rest => .symbol .comma :: (first.yield ++ rest.yieldMore)

end

def Arguments.length : Arguments → Nat
  | .done => 0
  | .more _ rest => rest.length + 1

/-- A condition in parentheses, and statements in braces. -/
def spellBranch (condition body : List Terminal) : List Terminal :=
  .symbol .leftParen :: (condition ++ .symbol .rightParen :: .symbol .leftBrace ::
    (body ++ [.symbol .rightBrace]))

mutual

def Statement.yield : Statement → List Terminal
  | .setVariable name value =>
    .keyword .kwLet :: .name name :: .symbol .eq :: (value.yield ++ [.symbol .semicolon])
  | .setElement name index value =>
    .keyword .kwLet :: .name name :: .symbol .leftBracket ::
      (index.yield ++ .symbol .rightBracket :: .symbol .eq ::
        (value.yield ++ [.symbol .semicolon]))
  | .ifThen condition body => .keyword .kwIf :: spellBranch condition.yield body.yield
  | .ifElse condition body otherwise =>
    .keyword .kwIf :: (spellBranch condition.yield body.yield ++
      .keyword .kwElse :: .symbol .leftBrace :: (otherwise.yield ++ [.symbol .rightBrace]))
  | .loop condition body => .keyword .kwWhile :: spellBranch condition.yield body.yield
  | .doCall qualifier callee arguments =>
    .keyword .kwDo :: (spellCall qualifier callee arguments.yield ++ [.symbol .semicolon])
  | .returnNothing => [.keyword .kwReturn, .symbol .semicolon]
  | .returnValue value => .keyword .kwReturn :: (value.yield ++ [.symbol .semicolon])

def Statements.yield : Statements → List Terminal
  | .done => []
  | .more first rest => first.yield ++ rest.yield

end

/-- No expression begins with what may stand in its place. -/
theorem Term.head_yield (term : Term) : ∃ head more, term.yield = head :: more ∧
    head ≠ .symbol .rightParen ∧ head ≠ .symbol .semicolon := by
  cases term with
  | call qualifier callee arguments =>
    cases qualifier <;> exact ⟨_, _, rfl, by simp, by simp⟩
  | unary operator operand =>
    cases operator <;> exact ⟨_, _, rfl, by simp [UnaryOperator.mark], by simp [UnaryOperator.mark]⟩
  | _ => exact ⟨_, _, rfl, by simp, by simp⟩

theorem Expression.head_yield (expression : Expression) : ∃ head more,
    expression.yield = head :: more ∧ head ≠ .symbol .rightParen ∧ head ≠ .symbol .semicolon := by
  obtain ⟨first, operators⟩ := expression
  obtain ⟨head, more, headed, others⟩ := first.head_yield
  exact ⟨head, more ++ operators.yield, by rw [Expression.yield, headed]; rfl, others⟩

namespace TypeName

def terminal : TypeName → Terminal
  | int => .keyword .kwInt
  | char => .keyword .kwChar
  | boolean => .keyword .kwBoolean
  | named name => .name name

def text : TypeName → String
  | int => "int"
  | char => "char"
  | boolean => "boolean"
  | named name => name

/-- What stands for a result, which may be missing. -/
def terminalOrVoid : Option TypeName → Terminal
  | none => .keyword .kwVoid
  | some type => type.terminal

end TypeName

namespace Names

def all (names : Names) : List String :=
  names.first :: names.more

def yield (names : Names) : List Terminal :=
  names.type.terminal :: .name names.first ::
    (names.more.flatMap (fun name => [.symbol .comma, .name name]) ++ [.symbol .semicolon])

end Names

def ClassKind.word : ClassKind → Keyword
  | statics => .kwStatic
  | field => .kwField

def ClassKind.varKind : ClassKind → VarKind
  | statics => .statics
  | field => .field

def ClassVariables.yield (group : ClassVariables) : List Terminal :=
  .keyword group.kind.word :: group.names.yield

def Parameter.yield (parameter : Parameter) : List Terminal :=
  [parameter.type.terminal, .name parameter.name]

def Parameter.yieldAll : List Parameter → List Terminal
  | [] => []
  | first :: more =>
    first.yield ++ more.flatMap fun parameter => .symbol .comma :: parameter.yield

def SubroutineKind.word : SubroutineKind → Keyword
  | constructor => .kwConstructor
  | function => .kwFunction
  | method => .kwMethod

def Subroutine.yield (subroutine : Subroutine) : List Terminal :=
  .keyword subroutine.kind.word ::
    TypeName.terminalOrVoid subroutine.result :: .name subroutine.name :: .symbol .leftParen ::
    (Parameter.yieldAll subroutine.parameters ++ .symbol .rightParen :: .symbol .leftBrace ::
      (subroutine.locals.flatMap (fun names => .keyword .kwVar :: names.yield) ++
        (subroutine.body.yield ++ [.symbol .rightBrace])))

def ClassTree.yield (tree : ClassTree) : List Terminal :=
  .keyword .kwClass :: .name tree.name :: .symbol .leftBrace ::
    (tree.classVariables.flatMap ClassVariables.yield ++
      (tree.subroutines.flatMap Subroutine.yield ++ [.symbol .rightBrace]))

/-- Tokens that spell a tree, with keywords written as themselves. -/
structure ClassTree.SpeltBy (tree : ClassTree) (tokens : List Token) : Prop where
  yield : tokens.map Token.terminal = tree.yield
  wellSpelt : ∀ token ∈ tokens, token.WellSpelt

/-- Every tree is spelt by tokens. -/
theorem ClassTree.speltBy_tokens (tree : ClassTree) :
    tree.SpeltBy (tree.yield.map Terminal.token) where
  yield := by simp [Function.comp_def, Terminal.terminal_token]
  wellSpelt token member := by
    obtain ⟨terminal, -, rfl⟩ := List.mem_map.1 member
    exact terminal.wellSpelt_token

end Jack
