import Jack.Grammar.Action
import Jack.Token.Stream

namespace Jack

/-- The instruction that an operator between two terms stands for. Multiplication and division are
calls. -/
def Symbol.binaryInstruction? : Symbol → Option Instruction
  | plus => some (.operate .add)
  | minus => some (.operate .sub)
  | star => some (.call "Math.multiply" 2)
  | slash => some (.call "Math.divide" 2)
  | amp => some (.operate .and)
  | pipe => some (.operate .or)
  | less => some (.operate .lt)
  | greater => some (.operate .gt)
  | eq => some (.operate .eq)
  | _ => none

/-- How many `if` and `while` statements of the current subroutine have begun. -/
structure Numbering where
  ifs : Nat
  whiles : Nat
deriving DecidableEq, Repr

namespace Numbering

def zero : Numbering :=
  ⟨0, 0⟩

/-- Each statement begins with its keyword, and so does each subroutine. -/
def after (numbering : Numbering) (token : Token) : Numbering :=
  match token.kind with
  | .keyword .kwIf => { numbering with ifs := numbering.ifs + 1 }
  | .keyword .kwWhile => { numbering with whiles := numbering.whiles + 1 }
  | .keyword .kwConstructor | .keyword .kwFunction | .keyword .kwMethod => zero
  | _ => numbering

end Numbering

/-- What still has to be recognised of a class. A goal takes the next token or does something else
that does not depend on it, and leaves goals of its own behind in both cases. -/
inductive Goal where
  /-- Exactly this token, which means nothing by itself. -/
  | token (kind : Token.Kind)
  | perform (actions : List Action)
  | className
  | classVariables
  | subroutines
  /-- The type of variables of a kind, and the names after it up to the semicolon. -/
  | declaration (kind : VarKind)
  | variable (kind : VarKind) (type : String)
  | moreVariables (kind : VarKind) (type : String)
  | returnType (kind : SubroutineKind)
  | subroutineName (kind : SubroutineKind)
  /-- The parameters of a subroutine up to the closing parenthesis. -/
  | parameters
  | parameterType
  | parameterName (type : String)
  | moreParameters
  | localVariables
  | statements
  | letName
  | letTarget (name : Token)
  | elseBranch
  | doCall
  | returnValue
  /-- One level deeper. -/
  | nest
  /-- A term on the level that it is nested in. -/
  | term
  /-- Operators with the terms behind them. -/
  | operators
  /-- What follows a name that begins a term. -/
  | nameTail (name : Token)
  /-- What follows a name that begins a call. -/
  | callTail (name : Token)
  | calleeName (qualifier : Token)
  | openCall (call : Call)
  /-- The arguments of a call up to the closing parenthesis. -/
  | arguments (call : Call)
  | moreArguments (call : Call) (count : Nat)
deriving DecidableEq, Repr

namespace Goal

/-- What a goal asks for and the goals that it leaves behind. -/
structure Step where
  actions : List Action
  goals : List Goal
deriving DecidableEq, Repr

def symbol (mark : Symbol) : Goal :=
  .token (.symbol mark)

def keyword (word : Keyword) : Goal :=
  .token (.keyword word)

/-- A class from its first to its last token. -/
def wholeClass : List Goal :=
  [.keyword .kwClass, .className, .symbol .leftBrace, .classVariables, .subroutines,
   .symbol .rightBrace]

/-- A term counts as one level. -/
def operand : List Goal :=
  [.nest, .term, .perform [.unnest]]

def expression : List Goal :=
  [.nest, .term, .perform [.unnest], .operators]

/-- Statements between braces count as one level. -/
def block : List Goal :=
  [.symbol .leftBrace, .nest, .statements, .perform [.unnest], .symbol .rightBrace]

def condition : List Goal :=
  .symbol .leftParen :: (expression ++ [.symbol .rightParen])

def ifStatement (number : Nat) : List Goal :=
  condition ++
  .perform [.jumpIf ⟨.ifTrue, number⟩, .jump ⟨.ifFalse, number⟩, .mark ⟨.ifTrue, number⟩] ::
  (block ++
  [.perform [.jump ⟨.ifEnd, number⟩, .mark ⟨.ifFalse, number⟩], .elseBranch,
   .perform [.mark ⟨.ifEnd, number⟩]])

def whileStatement (number : Nat) : List Goal :=
  condition ++
  .perform [.emit (.operate .not), .jumpIf ⟨.whileEnd, number⟩] ::
  (block ++ [.perform [.jump ⟨.whileStart, number⟩, .mark ⟨.whileEnd, number⟩]])

/-- An element of an array as the target: its address waits on the stack until the value is
there, since the value may use the pointer to elements itself. -/
def elementAssignment : List Goal :=
  expression ++ [.symbol .rightBracket, .perform [.emit (.operate .add)], .symbol .eq] ++
  expression ++
  [.perform [.emit (.pop .temp 0), .emit (.pop .pointer 1), .emit (.push .temp 0),
     .emit (.pop .that 0)],
   .symbol .semicolon]

/-- An element of an array as a term. -/
def element : List Goal :=
  expression ++
  [.symbol .rightBracket,
   .perform [.emit (.operate .add), .emit (.pop .pointer 1), .emit (.push .that 0)]]

/-- What a type may begin with, which is all of it. -/
def typeKinds : List Token.Kind :=
  [.keyword .kwInt, .keyword .kwChar, .keyword .kwBoolean, .identifier]

def takeCall? (token name : Token) : Option Step :=
  match token.kind with
  | .symbol .leftParen => some ⟨[.receiver ⟨none, name⟩], [.arguments ⟨none, name⟩]⟩
  | .symbol .dot => some ⟨[], [.calleeName name]⟩
  | _ => none

def takeStatement? (numbering : Numbering) (token : Token) : Option Step :=
  match token.kind with
  | .keyword .kwLet => some ⟨[], [.letName, .statements]⟩
  | .keyword .kwIf => some ⟨[], ifStatement numbering.ifs ++ [.statements]⟩
  | .keyword .kwWhile =>
    some ⟨[.mark ⟨.whileStart, numbering.whiles⟩],
      whileStatement numbering.whiles ++ [.statements]⟩
  | .keyword .kwDo =>
    some ⟨[], [.doCall, .symbol .semicolon, .perform [.emit (.pop .temp 0)], .statements]⟩
  | .keyword .kwReturn => some ⟨[], [.returnValue, .statements]⟩
  | _ => none

def takeTerm? (token : Token) : Option Step :=
  match token.kind with
  | .integer => some ⟨[.integer token], []⟩
  | .string => some ⟨[.string token], []⟩
  | .keyword .kwTrue => some ⟨[.emit (.push .constant 0), .emit (.operate .not)], []⟩
  | .keyword .kwFalse | .keyword .kwNull => some ⟨[.emit (.push .constant 0)], []⟩
  | .keyword .kwThis => some ⟨[.emit (.push .pointer 0)], []⟩
  | .identifier => some ⟨[], [.nameTail token]⟩
  | .symbol .leftParen => some ⟨[], expression ++ [.symbol .rightParen]⟩
  | .symbol .minus => some ⟨[], operand ++ [.perform [.emit (.operate .neg)]]⟩
  | .symbol .tilde => some ⟨[], operand ++ [.perform [.emit (.operate .not)]]⟩
  | _ => none

/-- What a goal does with the next token if it can use it. -/
def take? (numbering : Numbering) (token : Token) : Goal → Option Step
  | .token kind => if token.kind = kind then some ⟨[], []⟩ else none
  | .perform _ | .nest => none
  | .className =>
    if token.kind = .identifier then some ⟨[.nameClass token.lexeme], []⟩ else none
  | .classVariables =>
    match token.kind with
    | .keyword .kwStatic => some ⟨[], [.declaration .statics, .classVariables]⟩
    | .keyword .kwField => some ⟨[], [.declaration .field, .classVariables]⟩
    | _ => none
  | .subroutines =>
    match token.kind with
    | .keyword .kwConstructor => some ⟨[], [.returnType .constructor, .subroutines]⟩
    | .keyword .kwFunction => some ⟨[], [.returnType .function, .subroutines]⟩
    | .keyword .kwMethod => some ⟨[], [.returnType .method, .subroutines]⟩
    | _ => none
  | .declaration kind =>
    if token.kind ∈ typeKinds then some ⟨[], [.variable kind token.lexeme]⟩ else none
  | .variable kind type =>
    if token.kind = .identifier then
      some ⟨[.declare kind type token], [.moreVariables kind type]⟩
    else none
  | .moreVariables kind type =>
    match token.kind with
    | .symbol .comma => some ⟨[], [.variable kind type]⟩
    | .symbol .semicolon => some ⟨[], []⟩
    | _ => none
  | .returnType kind =>
    if token.kind ∈ Token.Kind.keyword .kwVoid :: typeKinds then some ⟨[], [.subroutineName kind]⟩
    else none
  | .subroutineName kind =>
    if token.kind = .identifier then
      some ⟨[.beginSubroutine kind token],
        [.symbol .leftParen, .parameters, .symbol .leftBrace, .localVariables, .statements,
         .symbol .rightBrace]⟩
    else none
  | .parameters =>
    if token.kind = .symbol .rightParen then some ⟨[], []⟩
    else if token.kind ∈ typeKinds then some ⟨[], [.parameterName token.lexeme]⟩
    else none
  | .parameterType =>
    if token.kind ∈ typeKinds then some ⟨[], [.parameterName token.lexeme]⟩ else none
  | .parameterName type =>
    if token.kind = .identifier then some ⟨[.declare .argument type token], [.moreParameters]⟩
    else none
  | .moreParameters =>
    match token.kind with
    | .symbol .comma => some ⟨[], [.parameterType]⟩
    | .symbol .rightParen => some ⟨[], []⟩
    | _ => none
  | .localVariables =>
    if token.kind = .keyword .kwVar then some ⟨[], [.declaration .locals, .localVariables]⟩
    else none
  | .statements => takeStatement? numbering token
  | .letName =>
    if token.kind = .identifier then some ⟨[.resolve token], [.letTarget token]⟩ else none
  | .letTarget name =>
    match token.kind with
    | .symbol .leftBracket => some ⟨[.load name], elementAssignment⟩
    | .symbol .eq => some ⟨[], expression ++ [.perform [.store name], .symbol .semicolon]⟩
    | _ => none
  | .elseBranch => if token.kind = .keyword .kwElse then some ⟨[], block⟩ else none
  | .doCall => if token.kind = .identifier then some ⟨[], [.callTail token]⟩ else none
  | .returnValue =>
    if token.kind = .symbol .semicolon then some ⟨[.emit (.push .constant 0), .emit .ret], []⟩
    else none
  | .term => takeTerm? token
  | .operators =>
    match token.kind with
    | .symbol mark =>
      mark.binaryInstruction?.map fun instruction =>
        ⟨[], operand ++ [.perform [.emit instruction], .operators]⟩
    | _ => none
  | .nameTail name =>
    if token.kind = .symbol .leftBracket then some ⟨[.load name], element⟩
    else takeCall? token name
  | .callTail name => takeCall? token name
  | .calleeName qualifier =>
    if token.kind = .identifier then some ⟨[], [.openCall ⟨some qualifier, token⟩]⟩ else none
  | .openCall call =>
    if token.kind = .symbol .leftParen then some ⟨[.receiver call], [.arguments call]⟩ else none
  | .arguments call =>
    if token.kind = .symbol .rightParen then some ⟨[.call call 0], []⟩ else none
  | .moreArguments call count =>
    match token.kind with
    | .symbol .comma =>
      some ⟨[], expression ++ [.perform [.argument call (count + 1)],
        .moreArguments call (count + 1)]⟩
    | .symbol .rightParen => some ⟨[.call call count], []⟩
    | _ => none

/-- What a goal does when it cannot use the next token, or what it expected instead. The line is
that of the next token. -/
def otherwise (line : Nat) : Goal → Except String Step
  | .token kind => .error kind.describe
  | .perform actions => .ok ⟨actions, []⟩
  | .className | .variable .. | .subroutineName _ | .parameterName _ | .letName | .doCall
  | .calleeName _ => .error Token.Kind.identifier.describe
  | .classVariables => .ok ⟨[.closeVariables], []⟩
  | .localVariables => .ok ⟨[.beginBody], []⟩
  | .subroutines | .statements | .elseBranch | .operators => .ok ⟨[], []⟩
  | .declaration _ | .returnType _ | .parameters | .parameterType =>
    .error (Token.Kind.describeAny typeKinds)
  | .moreVariables .. => .error (Token.Kind.symbol .semicolon).describe
  | .moreParameters | .moreArguments .. => .error (Token.Kind.symbol .rightParen).describe
  | .letTarget _ => .error (Token.Kind.symbol .eq).describe
  | .returnValue =>
    .ok ⟨[], expression ++ [.symbol .semicolon, .perform [.emit .ret]]⟩
  | .nest => .ok ⟨[.nest line], []⟩
  | .term => .error "expression"
  | .nameTail name => .ok ⟨[.load name], []⟩
  | .callTail _ => .error "'(' or '.'"
  | .openCall _ => .error (Token.Kind.symbol .leftParen).describe
  | .arguments call =>
    .ok ⟨[], expression ++ [.perform [.argument call 1], .moreArguments call 1]⟩

end Goal

end Jack
