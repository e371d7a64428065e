import Jack.Scope
import Jack.Token

namespace Jack

inductive SubroutineKind where
  | constructor
  | function
  | method
deriving DecidableEq, Repr

def SubroutineKind.label : SubroutineKind → String
  | constructor => "Constructor"
  | function => "Function"
  | method => "Method"

/-- The places that an `if` or a `while` jumps to. -/
inductive BranchTag where
  | ifTrue
  | ifFalse
  | ifEnd
  | whileStart
  | whileEnd
deriving DecidableEq, Repr

def BranchTag.text : BranchTag → String
  | ifTrue => "IF_TRUE"
  | ifFalse => "IF_FALSE"
  | ifEnd => "IF_END"
  | whileStart => "WHILE_EXP"
  | whileEnd => "WHILE_END"

/-- A place to jump to, with the number of its statement. Statements with and without a loop are
numbered apart, from zero in each subroutine. -/
structure BranchPoint where
  tag : BranchTag
  number : Nat
deriving DecidableEq, Repr

/-- The label of a place. Only the name of the subroutine goes into it. -/
def BranchPoint.label (subroutine : String) (point : BranchPoint) : String :=
  s!"{subroutine}${point.tag.text}_{point.number}"

/-- A call with the name in front of its dot, if it has one. -/
structure Call where
  qualifier : Option Token
  callee : Token
deriving DecidableEq, Repr

/-- What recognising a class asks for. An action is complete in itself: it carries the tokens, counts
and numbers that it needs. -/
inductive Action where
  /-- The class has this name. -/
  | nameClass (name : String)
  /-- A variable is declared, in the class or in the current subroutine by its kind. -/
  | declare (kind : VarKind) (type : String) (name : Token)
  /-- All variables of the class are declared. -/
  | closeVariables
  /-- A subroutine begins with the name that it declares. -/
  | beginSubroutine (kind : SubroutineKind) (name : Token)
  /-- All local variables are declared, and the statements follow. -/
  | beginBody
  | emit (instruction : Instruction)
  | mark (point : BranchPoint)
  | jump (point : BranchPoint)
  | jumpIf (point : BranchPoint)
  /-- The name has to be that of a variable. -/
  | resolve (name : Token)
  | load (name : Token)
  | store (name : Token)
  | integer (constant : Token)
  | string (constant : Token)
  /-- One level deeper, asked for on a line. -/
  | nest (line : Nat)
  | unnest
  /-- The object that a call is made on goes first, if there is one. -/
  | receiver (call : Call)
  /-- A call has this many written arguments by now. -/
  | argument (call : Call) (count : Nat)
  | call (call : Call) (count : Nat)
deriving DecidableEq, Repr

end Jack
