import Jack.Scope
import Jack.Token.Stream

namespace Jack

/-- The largest constant that an instruction can push. -/
def maxConstant : Nat := 32767

inductive CompileError where
  /-- A token other than the expected one. -/
  | unexpected (error : SyntaxError)
  /-- A declaration that its scope does not take. -/
  | declaration (line : Nat) (error : ScopeError)
  /-- A name that no scope declares. -/
  | undefined (line : Nat) (name : String)
  /-- A constant that holds a value past the largest one. -/
  | constantRange (line : Nat) (lexeme : String)
  /-- A call with more arguments than a word can count. -/
  | tooManyArguments (line : Nat) (callee : String)
  | nestingTooDeep (line : Nat) (limit : Nat)
deriving DecidableEq, Repr

def CompileError.message : CompileError → String
  | unexpected error => error.message
  | declaration line error => s!"[line {line}] {error.message}"
  | undefined line name => s!"[line {line}] error at '{name}': undefined variable"
  | constantRange line lexeme =>
    s!"[line {line}] error at '{lexeme}': constant out of range 0..={maxConstant}"
  | tooManyArguments line callee => s!"[line {line}] error at '{callee}': too many arguments"
  | nestingTooDeep line limit => s!"[line {line}] nesting exceeds limit of {limit}"

end Jack
