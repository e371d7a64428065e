import Jack.Compilation.Error
import Jack.Grammar.Goal
import Jack.Proofs.Syntax

namespace Jack

/-- A declared name, with its type as it is written. -/
structure Declaration where
  kind : VarKind
  type : String
  name : String
deriving DecidableEq, Repr

namespace Declaration

def count (kind : VarKind) (declarations : List Declaration) : Nat :=
  declarations.countP (·.kind = kind)

/-- The variable that a name stands for among the declarations of one scope. It is numbered by
the declarations of its kind that come before it. -/
def find? (declarations : List Declaration) (name : String) : Option Variable :=
  (declarations.find? (·.name = name)).map fun found =>
    ⟨found.type, found.kind, count found.kind (declarations.takeWhile (·.name ≠ name))⟩

/-- The declarations that one scope takes. -/
structure Accepted (declarations : List Declaration) : Prop where
  distinct : (declarations.map name).Nodup
  within : ∀ kind, count kind declarations ≤ 65535

end Declaration

/-- How many words a call hands over before its arguments: the object that it is made on. A
qualifier that is no variable names a class, on which there is no object. -/
def receivers (declared : String → Bool) (qualifier : Option String) : Nat :=
  match qualifier with
  | none => 1
  | some name => if declared name then 1 else 0

mutual

/-- Names in the place of variables are declared, constants fit into half a word, and so does the
number of arguments into a word. -/
def Expression.Valid (declared : String → Bool) : Expression → Prop
  | .mk first more => first.Valid declared ∧ more.Valid declared

def Operators.Valid (declared : String → Bool) : Operators → Prop
  | .done => True
  | .more _ operand rest => operand.Valid declared ∧ rest.Valid declared

def Term.Valid (declared : String → Bool) : Term → Prop
  | .integer value => ∃ small ≤ 32767, value = some small
  | .string text => text.toList.length ≤ 32767 ∧ ∀ c ∈ text.toList, c.toNat ≤ 32767
  | .constant _ => True
  | .variable name => declared name
  | .element name index => declared name ∧ index.Valid declared
  | .call qualifier _ arguments =>
    arguments.Valid declared ∧ receivers declared qualifier + arguments.length ≤ 65535
  | .parentheses inner => inner.Valid declared
  | .unary _ operand => operand.Valid declared

def Arguments.Valid (declared : String → Bool) : Arguments → Prop
  | .done => True
  | .more first rest => first.Valid declared ∧ rest.Valid declared

end

mutual

def Statement.Valid (declared : String → Bool) : Statement → Prop
  | .setVariable name value => declared name ∧ value.Valid declared
  | .setElement name index value => declared name ∧ index.Valid declared ∧ value.Valid declared
  | .ifThen condition body => condition.Valid declared ∧ body.Valid declared
  | .ifElse condition body otherwise =>
    condition.Valid declared ∧ body.Valid declared ∧ otherwise.Valid declared
  | .loop condition body => condition.Valid declared ∧ body.Valid declared
  | .doCall qualifier _ arguments =>
    arguments.Valid declared ∧ receivers declared qualifier + arguments.length ≤ 65535
  | .returnNothing => True
  | .returnValue value => value.Valid declared

def Statements.Valid (declared : String → Bool) : Statements → Prop
  | .done => True
  | .more first rest => first.Valid declared ∧ rest.Valid declared

end

mutual

/-- How many levels of terms an expression needs. -/
def Expression.depth : Expression → Nat
  | .mk first more => max (first.inner + 1) more.depth

def Operators.depth : Operators → Nat
  | .done => 0
  | .more _ operand rest => max (operand.inner + 1) rest.depth

/-- How many levels a term needs inside its own. -/
def Term.inner : Term → Nat
  | .integer _ | .string _ | .constant _ | .variable _ => 0
  | .element _ index => index.depth
  | .call _ _ arguments => arguments.depth
  | .parentheses inner => inner.depth
  | .unary _ operand => operand.inner + 1

def Arguments.depth : Arguments → Nat
  | .done => 0
  | .more first rest => max first.depth rest.depth

end

mutual

/-- How many levels a statement needs. The statements in its braces are one level deeper. -/
def Statement.depth : Statement → Nat
  | .setVariable _ value => value.depth
  | .setElement _ index value => max index.depth value.depth
  | .ifThen condition body => max condition.depth (body.depth + 1)
  | .ifElse condition body otherwise =>
    max condition.depth (max (body.depth + 1) (otherwise.depth + 1))
  | .loop condition body => max condition.depth (body.depth + 1)
  | .doCall _ _ arguments => arguments.depth
  | .returnNothing => 0
  | .returnValue value => value.depth

def Statements.depth : Statements → Nat
  | .done => 0
  | .more first rest => max first.depth rest.depth

end

/-- A choice has begun. -/
def Numbering.choice (numbering : Numbering) : Numbering :=
  { numbering with ifs := numbering.ifs + 1 }

/-- A loop has begun. -/
def Numbering.loop (numbering : Numbering) : Numbering :=
  { numbering with whiles := numbering.whiles + 1 }

mutual

/-- The numbers behind a statement: each `if` and each `while` takes the next one of its own
before the statements inside it do. -/
def Statement.numbered (numbering : Numbering) : Statement → Numbering
  | .ifThen _ body => body.numbered numbering.choice
  | .ifElse _ body otherwise =>
    otherwise.numbered (body.numbered numbering.choice)
  | .loop _ body => body.numbered numbering.loop
  | .setVariable .. | .setElement .. | .doCall .. | .returnNothing | .returnValue _ => numbering

def Statements.numbered (numbering : Numbering) : Statements → Numbering
  | .done => numbering
  | .more first rest => rest.numbered (first.numbered numbering)

end

def Names.declarations (kind : VarKind) (names : Names) : List Declaration :=
  names.all.map fun name => ⟨kind, names.type.text, name⟩

def Parameter.declaration (parameter : Parameter) : Declaration :=
  ⟨.argument, parameter.type.text, parameter.name⟩

/-- A method has its object as the first argument. -/
def SubroutineKind.object (className : String) : SubroutineKind → List Declaration
  | method => [⟨.argument, className, "this"⟩]
  | constructor | function => []

namespace Subroutine

/-- What a subroutine declares, in the order of its arguments and then of its local variables. -/
def declarations (className : String) (subroutine : Subroutine) : List Declaration :=
  subroutine.kind.object className ++
  subroutine.parameters.map Parameter.declaration ++
  subroutine.locals.flatMap (Names.declarations .locals)

/-- The names that stand for variables in a subroutine of a class. -/
def declares (className : String) (classVariables : List Declaration) (subroutine : Subroutine)
    (name : String) : Bool :=
  (subroutine.declarations className ++ classVariables).any (·.name = name)

structure Valid (className : String) (classVariables : List Declaration)
    (subroutine : Subroutine) : Prop where
  accepted : Declaration.Accepted (subroutine.declarations className)
  body : subroutine.body.Valid (subroutine.declares className classVariables)

end Subroutine

namespace ClassTree

/-- What a class declares outside its subroutines. -/
def declarations (tree : ClassTree) : List Declaration :=
  tree.classVariables.flatMap fun group => group.names.declarations group.kind.varKind

/-- How many levels of blocks and terms a class needs. -/
def depth (tree : ClassTree) : Nat :=
  (tree.subroutines.map fun subroutine => subroutine.body.depth).foldr max 0

/-- All that is asked of a class apart from its grammar and its depth. -/
structure Valid (tree : ClassTree) : Prop where
  accepted : Declaration.Accepted tree.declarations
  subroutines : ∀ subroutine ∈ tree.subroutines, subroutine.Valid tree.name tree.declarations

/-- The numbers of the `if` and `while` statements of each subroutine fit into 32 bits. -/
def Numbered (tree : ClassTree) : Prop :=
  ∀ subroutine ∈ tree.subroutines,
    (subroutine.body.numbered .zero).ifs < UInt32.size ∧
      (subroutine.body.numbered .zero).whiles < UInt32.size

end ClassTree

end Jack
