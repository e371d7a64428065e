import Jack.Compilation.Error
import Jack.Grammar.Action
import Jack.Log
import Jack.Token.Finding

namespace Jack

/-- What a class amounts to, in order: its instructions, and notes on what begins with them. -/
inductive Event where
  | classOpened (name : String) (fields statics : Nat)
  | subroutineOpened (kind : SubroutineKind) (name : String) (locals : Nat)
  | instruction (instruction : Instruction)
deriving DecidableEq, Repr

namespace Event

def message : Event → Message
  | classOpened name fields statics =>
    ⟨.debug, s!"class {name}: {fields} fields, {statics} statics"⟩
  | subroutineOpened kind name locals => ⟨.debug, s!"{kind.label} {name}: {locals} locals"⟩
  | instruction i => ⟨.trace, i.text⟩

def instruction? : Event → Option Instruction
  | instruction i => some i
  | _ => none

end Event

/-- What is known in the middle of a class. The scope is that of the class as long as no
subroutine has begun. -/
structure Generator where
  className : String
  fields : Nat
  kind : SubroutineKind
  name : String
  scope : Scope
  depth : Nat
  subroutines : Nat

namespace Generator

/-- Before the first action nothing has a name. -/
def start : Generator where
  className := ""
  fields := 0
  kind := .function
  name := ""
  scope := .ofClass
  depth := 0
  subroutines := 0

/-- What an action emits, and what is known behind it. A refused action may have emitted
something before. -/
abbrev Outcome := List Event × Except CompileError Generator

/-- Emits instructions and learns nothing. -/
def emit (generator : Generator) (instructions : List Instruction) : Outcome :=
  (instructions.map .instruction, .ok generator)

def refuse (error : CompileError) : Outcome :=
  ([], .error error)

def declare (generator : Generator) (kind : VarKind) (type name : String) (line : Nat) : Outcome :=
  match generator.scope.define name type kind with
  | .ok scope => ([], .ok { generator with scope })
  | .error error => refuse (.declaration line error)

/-- Hands the variable that a name stands for on, or refuses the name. -/
def withVariable (generator : Generator) (name : Token) (use : Variable → Outcome) : Outcome :=
  match generator.scope.lookup? name.lexeme with
  | some found => use found
  | none => refuse (.undefined name.line name.lexeme)

/-- The scope of a new subroutine takes the place of that of the one before. A method has its
object as the first argument. -/
def beginSubroutine (generator : Generator) (kind : SubroutineKind) (name : Token) : Outcome :=
  let scope := if generator.scope.isSubroutine then generator.scope.reset
    else generator.scope.enter
  let begun := { generator with
    kind, name := name.lexeme, scope, subroutines := generator.subroutines + 1 }
  match kind with
  | .method => begun.declare .argument generator.className "this" name.line
  | .constructor | .function => ([], .ok begun)

/-- What comes before the statements: a constructor makes room for its object, and both a
constructor and a method take their object as the current one. -/
def prologue (kind : SubroutineKind) (fields : Nat) : List Instruction :=
  match kind with
  | .constructor => [.push .constant fields, .call "Memory.alloc" 1, .pop .pointer 0]
  | .method => [.push .argument 0, .pop .pointer 0]
  | .function => []

def beginBody (generator : Generator) : Outcome :=
  let name := s!"{generator.className}.{generator.name}"
  let locals := generator.scope.count .locals
  (.subroutineOpened generator.kind name locals ::
    (.function name locals :: prologue generator.kind generator.fields).map .instruction,
   .ok generator)

/-- Appends a character to the string on top of the stack. -/
def appendChar (c : Char) : List Instruction :=
  [.push .constant c.toNat, .call "String.appendChar" 2]

def fitsConstant (c : Char) : Bool :=
  c.toNat ≤ maxConstant

/-- A string is made when it is used, from its length on and then character by character, up to
the first that is no constant. -/
def string (generator : Generator) (constant : Token) : Outcome :=
  let text := match constant.literal with
    | some (.text text) => text.toList
    | _ => []
  let tooLarge := CompileError.constantRange constant.line constant.lexeme
  if maxConstant < text.length then refuse tooLarge
  else
    let made := [.push .constant text.length, .call "String.new" 1] ++
      (text.takeWhile fitsConstant).flatMap appendChar
    (made.map .instruction, if text.all fitsConstant then .ok generator else .error tooLarge)

/-- The object that a call hands over before its arguments: the current one if nothing stands in
front of the name, and the variable that stands there, if it is one. Any other name is that of a
class. -/
def receiver? (scope : Scope) (call : Call) : Option Instruction :=
  match call.qualifier with
  | none => some (.push .pointer 0)
  | some name =>
    (scope.lookup? name.lexeme).map fun found => .push found.kind.segment found.index

/-- The class whose subroutine a call names. -/
def calleeClass (generator : Generator) (call : Call) : String :=
  match call.qualifier with
  | none => generator.className
  | some name =>
    match generator.scope.lookup? name.lexeme with
    | some found => found.type
    | none => name.lexeme

/-- The number of words that a call hands over for a number of written arguments. -/
def argumentCount (generator : Generator) (call : Call) (count : Nat) : Nat :=
  if (receiver? generator.scope call).isSome then count + 1 else count

/-- Carries an action out, with a limit on the depth of nesting. -/
def perform (limit : Nat) (generator : Generator) : Action → Outcome
  | .nameClass name => ([], .ok { generator with className := name })
  | .declare kind type name => generator.declare kind type name.lexeme name.line
  | .closeVariables =>
    let fields := generator.scope.count .field
    ([.classOpened generator.className fields (generator.scope.count .statics)],
     .ok { generator with fields })
  | .beginSubroutine kind name => generator.beginSubroutine kind name
  | .beginBody => generator.beginBody
  | .emit instruction => generator.emit [instruction]
  | .mark point => generator.emit [.label (point.label generator.name)]
  | .jump point => generator.emit [.goto (point.label generator.name)]
  | .jumpIf point => generator.emit [.ifGoto (point.label generator.name)]
  | .resolve name => generator.withVariable name fun _ => generator.emit []
  | .load name =>
    generator.withVariable name fun found =>
      generator.emit [.push found.kind.segment found.index]
  | .store name =>
    generator.withVariable name fun found =>
      generator.emit [.pop found.kind.segment found.index]
  | .integer constant =>
    match constant.literal with
    | some (.number value) =>
      if value ≤ maxConstant then generator.emit [.push .constant value]
      else refuse (.constantRange constant.line constant.lexeme)
    | _ => refuse (.constantRange constant.line constant.lexeme)
  | .string constant => generator.string constant
  | .nest line =>
    if limit ≤ generator.depth then refuse (.nestingTooDeep line limit)
    else ([], .ok { generator with depth := generator.depth + 1 })
  | .unnest => ([], .ok { generator with depth := generator.depth - 1 })
  | .receiver call => generator.emit (receiver? generator.scope call).toList
  | .argument call count =>
    if maxWord < generator.argumentCount call count then
      refuse (.tooManyArguments call.callee.line call.callee.lexeme)
    else generator.emit []
  | .call call count =>
    generator.emit
      [.call s!"{generator.calleeClass call}.{call.callee.lexeme}"
        (generator.argumentCount call count)]

/-- Carries actions out up to the first that is refused, behind what was emitted before. -/
def performOnto (limit : Nat) (emitted : Array Event) (generator : Generator) :
    List Action → Array Event × Except CompileError Generator
  | [] => (emitted, .ok generator)
  | action :: actions =>
    match generator.perform limit action with
    | (events, .ok generator) => performOnto limit (emitted ++ events) generator actions
    | (events, .error error) => (emitted ++ events, .error error)

def performAll (limit : Nat) (generator : Generator) (actions : List Action) : Outcome :=
  (generator.performOnto limit #[] actions).map Array.toList id

theorem performOnto_eq (limit : Nat) (emitted : Array Event) (generator : Generator)
    (actions : List Action) :
    performOnto limit emitted generator actions =
      (emitted ++ (generator.performAll limit actions).1,
       (generator.performAll limit actions).2) := by
  induction actions generalizing emitted generator with
  | nil => simp [performOnto, performAll]
  | cons action actions ih =>
    rw [performAll, performOnto, performOnto]
    split
    · rw [ih, ih (#[] ++ _)]
      exact Prod.ext (Array.ext' (by simp)) rfl
    · simp

/-- What the first action emits comes first, and the rest follows unless it is refused. -/
theorem performAll_cons (limit : Nat) (generator : Generator) (action : Action)
    (actions : List Action) :
    generator.performAll limit (action :: actions) =
      match generator.perform limit action with
      | (events, .ok later) =>
        (events ++ (later.performAll limit actions).1, (later.performAll limit actions).2)
      | (events, .error error) => (events, .error error) := by
  rw [performAll, performOnto]
  cases generator.perform limit action with
  | mk events result =>
    cases result with
    | ok later => simp [performOnto_eq]
    | error error => simp

end Generator

end Jack
