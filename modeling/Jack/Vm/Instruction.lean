namespace Jack

inductive Segment where
  | constant
  | argument
  | locals
  | statics
  | this
  | that
  | pointer
  | temp
deriving DecidableEq, Repr

namespace Segment

def all : List Segment :=
  [constant, argument, locals, statics, this, that, pointer, temp]

theorem mem_all (segment : Segment) : segment ∈ all := by
  cases segment <;> decide

def text : Segment → String
  | constant => "constant"
  | argument => "argument"
  | locals => "local"
  | statics => "static"
  | this => "this"
  | that => "that"
  | pointer => "pointer"
  | temp => "temp"

def ofText? (text : String) : Option Segment :=
  all.find? fun segment => segment.text == text

theorem ofText?_text (segment : Segment) : ofText? segment.text = some segment := by
  cases segment <;> decide

end Segment

/-- An operation on the words on top of the stack: two for most, one for `neg` and `not`. -/
inductive Operation where
  | add
  | sub
  | neg
  | eq
  | gt
  | lt
  | and
  | or
  | not
deriving DecidableEq, Repr

namespace Operation

def all : List Operation :=
  [add, sub, neg, eq, gt, lt, and, or, not]

theorem mem_all (operation : Operation) : operation ∈ all := by
  cases operation <;> decide

def text : Operation → String
  | add => "add"
  | sub => "sub"
  | neg => "neg"
  | eq => "eq"
  | gt => "gt"
  | lt => "lt"
  | and => "and"
  | or => "or"
  | not => "not"

def ofText? (text : String) : Option Operation :=
  all.find? fun operation => operation.text == text

theorem ofText?_text (operation : Operation) : ofText? operation.text = some operation := by
  cases operation <;> decide

end Operation

inductive Instruction where
  | push (segment : Segment) (index : Nat)
  | pop (segment : Segment) (index : Nat)
  | operate (operation : Operation)
  | label (name : String)
  | goto (name : String)
  | ifGoto (name : String)
  | call (callee : String) (arguments : Nat)
  | function (name : String) (locals : Nat)
  | ret
deriving DecidableEq, Repr

namespace Instruction

def text : Instruction → String
  | push segment index => s!"push {segment.text} {index}"
  | pop segment index => s!"pop {segment.text} {index}"
  | operate operation => operation.text
  | label name => s!"label {name}"
  | goto name => s!"goto {name}"
  | ifGoto name => s!"if-goto {name}"
  | call callee arguments => s!"call {callee} {arguments}"
  | function name locals => s!"function {name} {locals}"
  | ret => "return"

def line (instruction : Instruction) : String :=
  instruction.text ++ "\n"

end Instruction

end Jack
