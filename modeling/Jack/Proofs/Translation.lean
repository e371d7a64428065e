import Jack.Proofs.Static

namespace Jack

/-- What the code of a subroutine depends on apart from its own text. -/
structure Environment where
  className : String
  subroutine : String
  lookup? : String → Option Variable

namespace Environment

def declared (environment : Environment) (name : String) : Bool :=
  (environment.lookup? name).isSome

def push (environment : Environment) (name : String) : List Instruction :=
  match environment.lookup? name with
  | some found => [.push found.kind.segment found.index]
  | none => []

def pop (environment : Environment) (name : String) : List Instruction :=
  match environment.lookup? name with
  | some found => [.pop found.kind.segment found.index]
  | none => []

/-- The object that a call is made on: the current one, or the variable in front of the dot. -/
def receiver (environment : Environment) : Option String → List Instruction
  | none => [.push .pointer 0]
  | some name => environment.push name

/-- The class whose subroutine is called: the current one, that of the variable in front of the
dot, or the one that is named there. -/
def calleeClass (environment : Environment) : Option String → String
  | none => environment.className
  | some name =>
    match environment.lookup? name with
    | some found => found.type
    | none => name

/-- A call with the code of its arguments. -/
def call (environment : Environment) (qualifier : Option String) (callee : String)
    (arguments : List Instruction) (count : Nat) : List Instruction :=
  environment.receiver qualifier ++ arguments ++
    [.call (environment.calleeClass qualifier ++ "." ++ callee)
      ((environment.receiver qualifier).length + count)]

def label (environment : Environment) (tag : String) (number : Nat) : String :=
  environment.subroutine ++ "$" ++ tag ++ "_" ++ toString number

theorem label_eq (environment : Environment) (tag : BranchTag) (number : Nat) :
    BranchPoint.label environment.subroutine ⟨tag, number⟩ =
      environment.label tag.text number := by
  simp only [BranchPoint.label, label, toString]

end Environment

def BinaryOperator.code : BinaryOperator → Instruction
  | add => .operate .add
  | subtract => .operate .sub
  | multiply => .call "Math.multiply" 2
  | divide => .call "Math.divide" 2
  | and => .operate .and
  | or => .operate .or
  | less => .operate .lt
  | greater => .operate .gt
  | equal => .operate .eq

def UnaryOperator.code : UnaryOperator → Instruction
  | negate => .operate .neg
  | complement => .operate .not

def KeywordConstant.code : KeywordConstant → List Instruction
  | true => [.push .constant 0, .operate .not]
  | false | null => [.push .constant 0]
  | this => [.push .pointer 0]

/-- A string is made anew wherever it stands. -/
def stringCode (text : List Char) : List Instruction :=
  [.push .constant text.length, .call "String.new" 1] ++
    text.flatMap fun c => [.push .constant c.toNat, .call "String.appendChar" 2]

mutual

/-- Operators have no precedence: each takes what stands before it and the next term. -/
def Expression.code (environment : Environment) : Expression → List Instruction
  | .mk first more => first.code environment ++ more.code environment

def Operators.code (environment : Environment) : Operators → List Instruction
  | .done => []
  | .more operator operand rest =>
    operand.code environment ++ operator.code :: rest.code environment

def Term.code (environment : Environment) : Term → List Instruction
  | .integer value => [.push .constant (value.getD 0)]
  | .string text => stringCode text.toList
  | .constant word => word.code
  | .variable name => environment.push name
  | .element name index =>
    environment.push name ++ index.code environment ++
      [.operate .add, .pop .pointer 1, .push .that 0]
  | .call qualifier callee arguments =>
    environment.call qualifier callee (arguments.code environment) arguments.length
  | .parentheses inner => inner.code environment
  | .unary operator operand => operand.code environment ++ [operator.code]

def Arguments.code (environment : Environment) : Arguments → List Instruction
  | .done => []
  | .more first rest => first.code environment ++ rest.code environment

end

/-- A choice with a number. Each branch ends at the same place. -/
def Environment.choice (environment : Environment) (number : Nat)
    (condition body otherwise : List Instruction) : List Instruction :=
  condition ++
  [.ifGoto (environment.label "IF_TRUE" number), .goto (environment.label "IF_FALSE" number),
   .label (environment.label "IF_TRUE" number)] ++
  body ++
  [.goto (environment.label "IF_END" number), .label (environment.label "IF_FALSE" number)] ++
  otherwise ++
  [.label (environment.label "IF_END" number)]

/-- A loop with a number. It is left where the complement of the condition is not zero. -/
def Environment.loop (environment : Environment) (number : Nat)
    (condition body : List Instruction) : List Instruction :=
  [.label (environment.label "WHILE_EXP" number)] ++
  condition ++
  [.operate .not, .ifGoto (environment.label "WHILE_END" number)] ++
  body ++
  [.goto (environment.label "WHILE_EXP" number), .label (environment.label "WHILE_END" number)]

mutual

def Statement.code (environment : Environment) (numbering : Numbering) :
    Statement → List Instruction
  | .setVariable name value => value.code environment ++ environment.pop name
  | .setElement name index value =>
    environment.push name ++ index.code environment ++ [.operate .add] ++
      value.code environment ++
      [.pop .temp 0, .pop .pointer 1, .push .temp 0, .pop .that 0]
  | .ifThen condition body =>
    environment.choice numbering.ifs (condition.code environment)
      (body.code environment numbering.choice) []
  | .ifElse condition body otherwise =>
    environment.choice numbering.ifs (condition.code environment)
      (body.code environment numbering.choice)
      (otherwise.code environment
        (body.numbered numbering.choice))
  | .loop condition body =>
    environment.loop numbering.whiles (condition.code environment)
      (body.code environment numbering.loop)
  | .doCall qualifier callee arguments =>
    environment.call qualifier callee (arguments.code environment) arguments.length ++
      [.pop .temp 0]
  | .returnNothing => [.push .constant 0, .ret]
  | .returnValue value => value.code environment ++ [.ret]

def Statements.code (environment : Environment) (numbering : Numbering) :
    Statements → List Instruction
  | .done => []
  | .more first rest =>
    first.code environment numbering ++ rest.code environment (first.numbered numbering)

end

namespace Subroutine

/-- A variable of the subroutine comes before one of the class with the same name. -/
def environment (className : String) (classVariables : List Declaration)
    (subroutine : Subroutine) : Environment where
  className := className
  subroutine := subroutine.name
  lookup? name :=
    (Declaration.find? (subroutine.declarations className) name).or
      (Declaration.find? classVariables name)

/-- What comes before the statements: a constructor makes an object with room for its fields, and
constructors and methods take their object as the current one. -/
def opening (fields : Nat) (subroutine : Subroutine) : List Instruction :=
  match subroutine.kind with
  | .constructor => [.push .constant fields, .call "Memory.alloc" 1, .pop .pointer 0]
  | .method => [.push .argument 0, .pop .pointer 0]
  | .function => []

def localCount (className : String) (subroutine : Subroutine) : Nat :=
  Declaration.count .locals (subroutine.declarations className)

def code (className : String) (classVariables : List Declaration) (subroutine : Subroutine) :
    List Instruction :=
  .function (className ++ "." ++ subroutine.name) (subroutine.localCount className) ::
    (subroutine.opening (Declaration.count .field classVariables) ++
      subroutine.body.code (subroutine.environment className classVariables) .zero)

end Subroutine

namespace ClassTree

def code (tree : ClassTree) : List Instruction :=
  tree.subroutines.flatMap (Subroutine.code tree.name tree.declarations)

/-- The code as text, one line for each instruction. -/
def text (tree : ClassTree) : String :=
  String.join (tree.code.map Instruction.line)

end ClassTree

end Jack
