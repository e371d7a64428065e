import Jack.Compilation.Generator
import Jack.Grammar.Recognizer

namespace Jack

/-- What a class amounts to up to its end or to the first error, and what is known there. -/
structure ClassCode where
  events : List Event
  result : Except CompileError Generator

namespace ClassCode

/-- The limit on the depth of nesting where none is given. -/
def defaultLimit : Nat := 128

/-- A refused action comes before the token at which recognition ends, so its error wins. -/
def ofTokens (limit : Nat) (tokens : List Token) : ClassCode :=
  let (actions, failure) := (Recognizer.ofTokens tokens).run
  match Generator.start.performAll limit actions, failure with
  | (events, .ok generator), none => ⟨events, .ok generator⟩
  | (events, .ok _), some error => ⟨events, .error (.unexpected error)⟩
  | (events, .error error), _ => ⟨events, .error error⟩

def instructions (code : ClassCode) : List Instruction :=
  code.events.filterMap Event.instruction?

/-- The instructions as text, one line each. -/
def text (code : ClassCode) : String :=
  String.join (code.instructions.map Instruction.line)

end ClassCode

end Jack
