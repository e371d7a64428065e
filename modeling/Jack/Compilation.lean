import Jack.Compilation.ClassCode
import Jack.Vm.Writer

namespace Jack

/-- What a class that compiled holds. -/
structure Summary where
  className : String
  subroutines : Nat
  instructions : Nat
deriving DecidableEq, Repr

def Summary.message (summary : Summary) : Message :=
  let counts := s!"{summary.subroutines} subroutines, {summary.instructions} instructions"
  ⟨.debug, s!"compiled class {summary.className}: {counts}"⟩

/-- Why a compilation did not finish: the class is refused, or its sink fails. -/
inductive Compilation.Failure where
  | refused (error : CompileError)
  | sink (error : SinkError)
deriving DecidableEq, Repr

def Compilation.Failure.message : Compilation.Failure → String
  | refused error => error.message
  | sink error => error.message

/-- What a compilation reports, what its sink holds in the end and how it ended. -/
structure Compilation where
  messages : List Message
  sink : Sink
  result : Except Compilation.Failure Summary

namespace Compilation

/-- Reports and writes events up to the first that the sink does not take whole. That one is
reported too. The messages before it are given. -/
def writeOnto (messages : Array Message) (writer : Writer) :
    List Event → Array Message × Writer × Option SinkError
  | [] => (messages, writer, none)
  | event :: events =>
    let messages := messages.push event.message
    match event.instruction? with
    | none => writeOnto messages writer events
    | some instruction =>
      match writer.write instruction with
      | (writer, none) => writeOnto messages writer events
      | (writer, some error) => (messages, writer, some error)

/-- Writes the code of a class into a sink. An error in writing comes before the error that ended
the code, and the sink is flushed only behind a whole class. -/
def ofCode (code : ClassCode) (sink : Sink) : Compilation :=
  let (messages, writer, failed) := writeOnto #[] (.ofSink sink) code.events
  let result :=
    match failed, code.result with
    | some error, _ => .error (.sink error)
    | none, .error error => .error (.refused error)
    | none, .ok generator =>
      match writer.flush with
      | some error => .error (.sink error)
      | none => .ok ⟨generator.className, generator.subroutines, writer.count⟩
  ⟨messages.toList, writer.sink, result⟩

def ofTokens (limit : Nat) (tokens : List Token) (sink : Sink) : Compilation :=
  ofCode (.ofTokens limit tokens) sink

/-- Compiles a source text. All of it is scanned before the class is recognised. -/
def ofSource (limit : Nat) (source : String) (sink : Sink) : Compilation :=
  let findings := Finding.ofSource source
  let compilation := ofTokens limit (Finding.tokens findings) sink
  let done :=
    match compilation.result with
    | .ok summary => [summary.message]
    | .error _ => []
  { compilation with
    messages := (Finding.warnings findings).map Warning.message ++ compilation.messages ++ done }

/-- The text of the instructions of a source text under the usual limit. -/
def textOfSource (source : String) : Except CompileError String :=
  let tokens := Finding.tokens (Finding.ofSource source)
  let code := ClassCode.ofTokens ClassCode.defaultLimit tokens
  code.result.map fun _ => code.text

end Compilation

end Jack
