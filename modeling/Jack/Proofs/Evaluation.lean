import Jack.Proofs.Machine
import Jack.Proofs.Soundness

namespace Jack

/-- The word that a variable holds. Fields lie in the current object. -/
def Variable.value (found : Variable) (frame : Frame) (world : World) : Word :=
  match found.kind with
  | .statics => world.statics found.index
  | .field => world.heap (frame.this + BitVec.ofNat 16 found.index)
  | .argument => frame.arguments found.index
  | .locals => frame.locals found.index

namespace Environment

/-- The value of a name, which has to be declared. -/
def value (environment : Environment) (frame : Frame) (world : World) (name : String) : Word :=
  match environment.lookup? name with
  | some found => found.value frame world
  | none => 0

/-- What a call hands over before its arguments. -/
def object (environment : Environment) (frame : Frame) (world : World) :
    Option String → List Word
  | none => [frame.this]
  | some name =>
    match environment.lookup? name with
    | some found => [found.value frame world]
    | none => []

end Environment

/-- Multiplication and division are calls. -/
def BinaryOperator.apply (oracle : Oracle) (x y : Word) (world : World) :
    BinaryOperator → Word × World
  | add => (x + y, world)
  | subtract => (x - y, world)
  | multiply => oracle.call "Math.multiply" [x, y] world
  | divide => oracle.call "Math.divide" [x, y] world
  | and => (x &&& y, world)
  | or => (x ||| y, world)
  | less => (.truth (x.slt y), world)
  | greater => (.truth (y.slt x), world)
  | equal => (.truth (x == y), world)

def UnaryOperator.apply (x : Word) : UnaryOperator → Word
  | negate => -x
  | complement => ~~~x

def KeywordConstant.value (frame : Frame) : KeywordConstant → Word
  | true => -1
  | false | null => 0
  | this => frame.this

/-- A new string with characters appended to it one by one. -/
def appendAll (oracle : Oracle) (made : Word × World) (text : List Char) : Word × World :=
  text.foldl (fun made c =>
    oracle.call "String.appendChar" [made.1, BitVec.ofNat 16 c.toNat] made.2) made

def stringValue (oracle : Oracle) (world : World) (text : List Char) : Word × World :=
  appendAll oracle (oracle.call "String.new" [BitVec.ofNat 16 text.length] world) text

section

variable (environment : Environment) (oracle : Oracle) (frame : Frame)

mutual

def Expression.eval (world : World) : Expression → Word × World
  | .mk first more =>
    let left := first.eval world
    more.eval left.1 left.2

/-- Each operator takes all that stands before it. -/
def Operators.eval (left : Word) (world : World) : Operators → Word × World
  | .done => (left, world)
  | .more operator operand rest =>
    let right := operand.eval world
    let result := operator.apply oracle left right.1 right.2
    rest.eval result.1 result.2

def Term.eval (world : World) : Term → Word × World
  | .integer value => (BitVec.ofNat 16 (value.getD 0), world)
  | .string text => stringValue oracle world text.toList
  | .constant word => (word.value frame, world)
  | .variable name => (environment.value frame world name, world)
  | .element name index =>
    let array := environment.value frame world name
    let place := index.eval world
    (place.2.heap (array + place.1), place.2)
  | .call qualifier callee arguments =>
    let object := environment.object frame world qualifier
    let others := arguments.eval world
    oracle.call (environment.calleeClass qualifier ++ "." ++ callee) (object ++ others.1) others.2
  | .parentheses inner => inner.eval world
  | .unary operator operand =>
    let value := operand.eval world
    (operator.apply value.1, value.2)

def Arguments.eval (world : World) : Arguments → List Word × World
  | .done => ([], world)
  | .more first rest =>
    let value := first.eval world
    let others := rest.eval value.2
    (value.1 :: others.1, others.2)

end

end

namespace Machine

/-- Code leaves words on top of the stack and the world in some state. Nothing else changes, apart
from what no pending operand depends on. -/
def Yields (oracle : Oracle) (machine : Machine) (code : List Instruction) (words : List Word)
    (world : World) : Prop :=
  ∃ that temp, machine.execute? oracle code =
    some { machine with stack := words.reverse ++ machine.stack, world, that, temp }

namespace Yields

variable {oracle : Oracle} {machine : Machine} {code last : List Instruction}
  {words others : List Word} {world after : World}

theorem nil (oracle : Oracle) (machine : Machine) : machine.Yields oracle [] [] machine.world :=
  ⟨machine.that, machine.temp, rfl⟩

/-- Code that uses words on top of the stack. -/
theorem use (front : machine.Yields oracle code words world)
    (back : ∀ (next : Machine) stack, next.stack = words.reverse ++ stack →
      next.frame = machine.frame → next.world = world → ∃ that temp, next.execute? oracle last =
        some { next with stack := others.reverse ++ stack, world := after, that, temp }) :
    machine.Yields oracle (code ++ last) others after := by
  obtain ⟨that, temp, done⟩ := front
  obtain ⟨that', temp', done'⟩ := back
    { machine with stack := words.reverse ++ machine.stack, world, that, temp } _ rfl rfl rfl
  exact ⟨that', temp', by rw [execute?_append, done]; exact done'⟩

theorem append (last : List Instruction) (front : machine.Yields oracle code words world)
    (back : ∀ next : Machine, next.frame = machine.frame → next.world = world →
      next.Yields oracle last others after) :
    machine.Yields oracle (code ++ last) (words ++ others) after := by
  refine front.use fun next stack onto frame reached => ?_
  obtain ⟨that, temp, done⟩ := back next frame reached
  exact ⟨that, temp, by rw [done, onto, List.reverse_append, List.append_assoc]⟩

theorem push {segment : Segment} {index : Nat} {word : Word}
    (reads : machine.read? segment index = some word) :
    machine.Yields oracle [.push segment index] [word] machine.world :=
  ⟨machine.that, machine.temp, by simp [execute?, effect?, reads]⟩

theorem operate {operation : Operation} (front : machine.Yields oracle code words world)
    (acts : ∀ stack, operation.result? (words.reverse ++ stack) = some (others.reverse ++ stack)) :
    machine.Yields oracle (code ++ [.operate operation]) others world := by
  refine front.use fun next stack onto frame reached => ⟨next.that, next.temp, ?_⟩
  subst reached
  simp [execute?, effect?, onto, acts]

theorem call (callee : String) (front : machine.Yields oracle code words world) :
    machine.Yields oracle (code ++ [.call callee words.length])
      [(oracle.call callee words world).1] (oracle.call callee words world).2 := by
  refine front.use fun next stack onto frame reached =>
    ⟨next.that, oracle.temp callee words next, ?_⟩
  subst reached
  have within : words.length ≤ next.stack.length := by simp [onto]
  have top : (next.stack.take words.length).reverse = words := by
    rw [onto, List.take_left' (List.length_reverse ..), List.reverse_reverse]
  have below : next.stack.drop words.length = stack := by
    rw [onto, List.drop_left' (List.length_reverse ..)]
  simp only [execute?, effect?, if_pos within, top, below, Option.bind_some]
  rfl

theorem add {x y : Word} (front : machine.Yields oracle code [x, y] world) :
    machine.Yields oracle (code ++ [.operate .add]) [x + y] world :=
  front.operate fun _ => rfl

/-- The word at an address. -/
theorem element {address : Word} (front : machine.Yields oracle code [address] world) :
    machine.Yields oracle (code ++ [.pop .pointer 1, .push .that 0]) [world.heap address]
      world := by
  refine front.use fun next stack onto frame reached => ⟨address, next.temp, ?_⟩
  subst reached
  simp [execute?, effect?, onto, write?, read?]

end Yields

end Machine

variable {environment : Environment} {oracle : Oracle} {machine : Machine}
  {code : List Instruction} {world : World}

theorem Variable.read?_eq (found : Variable) (machine : Machine) :
    machine.read? found.kind.segment found.index =
      some (found.value machine.frame machine.world) := by
  rcases found with ⟨type, _ | _ | _ | _, index⟩ <;> rfl

theorem Environment.push_yields {name : String} (declared : environment.declared name) :
    machine.Yields oracle (environment.push name)
      [environment.value machine.frame machine.world name] machine.world := by
  obtain ⟨found, known⟩ := Option.isSome_iff_exists.1 declared
  simp only [push, value, known]
  exact .push (found.read?_eq machine)

theorem Environment.receiver_yields (qualifier : Option String) :
    machine.Yields oracle (environment.receiver qualifier)
      (environment.object machine.frame machine.world qualifier) machine.world := by
  rcases qualifier with _ | name
  · exact .push rfl
  · cases known : environment.lookup? name with
    | none =>
      simp only [receiver, push, object, known]
      exact .nil oracle machine
    | some found =>
      simp only [receiver, push, object, known]
      exact .push (found.read?_eq machine)

theorem Environment.length_object (frame : Frame) (world : World) (qualifier : Option String) :
    (environment.object frame world qualifier).length =
      (environment.receiver qualifier).length := by
  rcases qualifier with _ | name
  · rfl
  · cases known : environment.lookup? name <;> simp [object, receiver, push, known]

theorem Arguments.length_eval (frame : Frame) : (arguments : Arguments) → (world : World) →
    (arguments.eval environment oracle frame world).1.length = arguments.length
  | .done, _ => rfl
  | .more _ rest, _ => congrArg (· + 1) (rest.length_eval frame _)

theorem BinaryOperator.yields {x y : Word} (operator : BinaryOperator)
    (front : machine.Yields oracle code [x, y] world) :
    machine.Yields oracle (code ++ [operator.code]) [(operator.apply oracle x y world).1]
      (operator.apply oracle x y world).2 := by
  cases operator with
  | multiply => exact front.call "Math.multiply"
  | divide => exact front.call "Math.divide"
  | _ => exact front.operate fun _ => rfl

theorem UnaryOperator.yields {x : Word} (operator : UnaryOperator)
    (front : machine.Yields oracle code [x] world) :
    machine.Yields oracle (code ++ [operator.code]) [operator.apply x] world := by
  cases operator <;> exact front.operate fun _ => rfl

theorem KeywordConstant.yields (word : KeywordConstant) :
    machine.Yields oracle word.code [word.value machine.frame] machine.world := by
  cases word with
  | true =>
    have zero : machine.Yields oracle [.push .constant 0] [0] machine.world := .push rfl
    exact zero.operate fun _ => rfl
  | _ => exact .push rfl

/-- The string under construction is the only word that waits. -/
theorem appendAll_yields (text : List Char) {made : Word × World}
    (front : machine.Yields oracle code [made.1] made.2) :
    machine.Yields oracle
      (code ++ text.flatMap fun c => [.push .constant c.toNat, .call "String.appendChar" 2])
      [(appendAll oracle made text).1] (appendAll oracle made text).2 := by
  induction text generalizing code made with
  | nil =>
    rw [List.flatMap_nil, List.append_nil]
    exact front
  | cons c text ih =>
    have both : machine.Yields oracle (code ++ [.push .constant c.toNat])
        [made.1, BitVec.ofNat 16 c.toNat] made.2 :=
      front.append _ fun next _ reached => reached ▸ .push rfl
    have longer := ih (both.call "String.appendChar")
    rwa [List.append_assoc, List.append_assoc] at longer

theorem stringCode_yields (text : List Char) :
    machine.Yields oracle (stringCode text) [(stringValue oracle machine.world text).1]
      (stringValue oracle machine.world text).2 := by
  have length : machine.Yields oracle [.push .constant text.length]
      [BitVec.ofNat 16 text.length] machine.world := .push rfl
  exact appendAll_yields text (length.call "String.new")

mutual

/-- The code of an expression leaves its value, and leads to the world that its calls lead to. -/
theorem Expression.yields : (expression : Expression) → ∀ machine : Machine,
    expression.Valid environment.declared →
    machine.Yields oracle (expression.code environment)
      [(expression.eval environment oracle machine.frame machine.world).1]
      (expression.eval environment oracle machine.frame machine.world).2
  | .mk first more, machine, valid =>
    more.yields valid.2 (first.yields machine valid.1)

theorem Operators.yields : (operators : Operators) →
    ∀ {machine : Machine} {code : List Instruction} {left : Word} {world : World},
    operators.Valid environment.declared → machine.Yields oracle code [left] world →
    machine.Yields oracle (code ++ operators.code environment)
      [(operators.eval environment oracle machine.frame left world).1]
      (operators.eval environment oracle machine.frame left world).2
  | .done, machine, code, left, world, _, front => by
    rw [Operators.code, List.append_nil]
    exact front
  | .more operator operand rest, machine, code, left, world, valid, front => by
    have both := front.append (operand.code environment) fun next frame reached => by
      have right := operand.yields next valid.1
      rwa [frame, reached] at right
    have whole := rest.yields valid.2 (operator.yields both)
    rwa [List.append_assoc, List.append_assoc] at whole

theorem Term.yields : (term : Term) → ∀ machine : Machine,
    term.Valid environment.declared →
    machine.Yields oracle (term.code environment)
      [(term.eval environment oracle machine.frame machine.world).1]
      (term.eval environment oracle machine.frame machine.world).2
  | .integer _, machine, _ => .push rfl
  | .string text, machine, _ => stringCode_yields text.toList
  | .constant word, machine, _ => word.yields
  | .variable name, machine, valid => Environment.push_yields valid
  | .element name index, machine, valid => by
    have array : machine.Yields oracle (environment.push name) _ _ :=
      Environment.push_yields valid.1
    have both := array.append (index.code environment) fun next frame reached => by
      have place := index.yields next valid.2
      rwa [frame, reached] at place
    have element := both.add.element
    rwa [List.append_assoc] at element
  | .call qualifier callee arguments, machine, valid => by
    have object : machine.Yields oracle (environment.receiver qualifier) _ _ :=
      Environment.receiver_yields qualifier
    have both := object.append (arguments.code environment) fun next frame reached => by
      have others := arguments.yields next valid.1
      rwa [frame, reached] at others
    have called := both.call (environment.calleeClass qualifier ++ "." ++ callee)
    rw [List.length_append, Environment.length_object, Arguments.length_eval] at called
    exact called
  | .parentheses inner, machine, valid => inner.yields machine valid
  | .unary operator operand, machine, valid => operator.yields (operand.yields machine valid)

theorem Arguments.yields : (arguments : Arguments) → ∀ machine : Machine,
    arguments.Valid environment.declared →
    machine.Yields oracle (arguments.code environment)
      (arguments.eval environment oracle machine.frame machine.world).1
      (arguments.eval environment oracle machine.frame machine.world).2
  | .done, machine, _ => .nil oracle machine
  | .more first rest, machine, valid => by
    refine (first.yields machine valid.1).append _ fun next frame reached => ?_
    have others := rest.yields next valid.2
    rwa [frame, reached] at others

end

/-- Whatever is accepted as an expression is one, and its code does what the expression means: one
word more is on the stack, which is its value, and the same calls were made. -/
theorem accepted_expression_yields {limit : Nat} {generator reached : Generator}
    {stream later : TokenStream} {numbering last : Numbering} {actions : List Action}
    {events : List Event}
    (recognized : Recognizer.Reaches ⟨Goal.expression, stream, numbering⟩ actions
      ⟨[], later, last⟩)
    (performed : generator.performAll limit actions = (events, .ok reached)) :
    ∃ (tokens : List Token) (expression : Expression), stream.rest = tokens ++ later.rest ∧
      tokens.map Token.terminal = expression.yield ∧
      (∀ other : Expression, tokens.map Token.terminal = other.yield → other = expression) ∧
      ∀ (oracle : Oracle) (machine : Machine), ∃ that temp,
        machine.execute? oracle (events.filterMap Event.instruction?) = some
          { stack := (expression.eval generator.environment oracle machine.frame
              machine.world).1 :: machine.stack
            frame := machine.frame
            world := (expression.eval generator.environment oracle machine.frame machine.world).2
            that, temp } := by
  obtain ⟨tokens, rest, means⟩ := recognized.means rfl
  have means : Goal.MeansAll tokens later.rest (Goal.expression ++ []) := means
  obtain ⟨tokens, nothing, rfl, none, expression, spelt, ends⟩ := means.expression
  obtain rfl : nothing = [] := none
  rw [List.append_nil] at rest
  obtain ⟨taken, left⟩ := stream
  obtain rfl : left = tokens ++ later.rest := rest
  obtain ⟨others, reach, performs⟩ := expression.leads limit numbering generator spelt ends taken []
  obtain rfl := recognized.actions_unique rfl reach rfl
  obtain ⟨⟨valid, -⟩, rfl, -⟩ := performs.of_ok performed
  refine ⟨tokens, expression, rfl, spelt, fun other same =>
    Expression.yield_injective (same.symm.trans spelt), fun oracle machine => ?_⟩
  rw [Event.filterMap_instruction]
  exact expression.yields machine valid

/-- An element of an array behind an index, times a negative number. -/
def Expression.scaled : Expression :=
  .mk (.element "list" (.mk (.variable "i") (.more .add (.integer (some 1)) .done)))
    (.more .multiply (.unary .negate (.integer (some 2))) .done)

/-- A place with an array and a number as arguments. -/
def Generator.withList : Generator :=
  Generator.start.holding [⟨.argument, "Array", "list"⟩, ⟨.argument, "int", "i"⟩] [.empty]

theorem accepted_expression_yields_scaled :
    ∃ (tokens : List Token) (expression : Expression),
      Expression.scaled.yield.map Terminal.token ++ [Terminal.token (.symbol .semicolon)] =
        tokens ++ [Terminal.token (.symbol .semicolon)] ∧
      tokens.map Token.terminal = expression.yield ∧
      (∀ other : Expression, tokens.map Token.terminal = other.yield → other = expression) ∧
      ∀ (oracle : Oracle) (machine : Machine), ∃ that temp,
        machine.execute? oracle (Expression.scaled.code Generator.withList.environment) = some
          { stack := (expression.eval Generator.withList.environment oracle machine.frame
              machine.world).1 :: machine.stack
            frame := machine.frame
            world := (expression.eval Generator.withList.environment oracle machine.frame
              machine.world).2
            that, temp } := by
  have spelt : (Expression.scaled.yield.map Terminal.token).map Token.terminal =
      Expression.scaled.yield := by simp [Function.comp_def, Terminal.terminal_token]
  have valid : Expression.scaled.Valid Generator.withList.environment.declared := by
    simp only [Expression.scaled, Expression.Valid, Operators.Valid, Term.Valid,
      Option.some.injEq, exists_eq_right']
    decide
  obtain ⟨actions, reach, performs⟩ := Expression.leads 3 Expression.scaled .zero .withList spelt
    (Expression.ends_of_closer [] (Terminal.terminal_token (.symbol .semicolon)) (by decide) _)
    [] []
  have meaning := accepted_expression_yields reach (performs.success ⟨valid, by decide⟩)
  rwa [Event.filterMap_instruction] at meaning

end Jack
