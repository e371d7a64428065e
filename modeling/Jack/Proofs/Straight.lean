import Jack.Proofs.Translation

namespace Jack

/-- Whether an instruction only leads on to the one behind it, and cannot be jumped to. -/
def Instruction.isStraight : Instruction → Bool
  | .push .. | .pop .. | .operate _ | .call .. => true
  | .label _ | .goto _ | .ifGoto _ | .function .. | .ret => false

/-- The label that an instruction jumps to, whatever it asks for first. -/
def Instruction.target? : Instruction → Option String
  | .goto name | .ifGoto name => some name
  | _ => none

theorem Instruction.target?_of_isStraight {instruction : Instruction}
    (straight : instruction.isStraight) : instruction.target? = none := by
  cases instruction <;> first | rfl | cases straight

def Straight (code : List Instruction) : Prop :=
  ∀ instruction ∈ code, instruction.isStraight

instance (code : List Instruction) : Decidable (Straight code) :=
  inferInstanceAs (Decidable (∀ instruction ∈ code, instruction.isStraight))

namespace Straight

variable {first last : List Instruction} {environment : Environment}

theorem append (front : Straight first) (back : Straight last) : Straight (first ++ last) := by
  intro instruction member
  rcases List.mem_append.1 member with member | member
  · exact front instruction member
  · exact back instruction member

theorem cons {instruction : Instruction} (straight : instruction.isStraight)
    (rest : Straight last) : Straight (instruction :: last) :=
  List.forall_mem_cons.2 ⟨straight, rest⟩

theorem nil : Straight [] :=
  List.forall_mem_nil _

theorem push (environment : Environment) (name : String) : Straight (environment.push name) := by
  unfold Environment.push
  split
  · exact cons rfl nil
  · exact nil

theorem pop (environment : Environment) (name : String) : Straight (environment.pop name) := by
  unfold Environment.pop
  split
  · exact cons rfl nil
  · exact nil

theorem call (qualifier : Option String) (callee : String) (count : Nat)
    (arguments : Straight first) :
    Straight (environment.call qualifier callee first count) := by
  have receiver : Straight (environment.receiver qualifier) := by
    cases qualifier with
    | none => exact cons rfl nil
    | some name => exact push environment name
  exact (receiver.append arguments).append (cons rfl nil)

theorem stringCode (text : List Char) : Straight (stringCode text) := by
  refine append (cons rfl (cons rfl nil)) ?_
  induction text with
  | nil => exact nil
  | cons c text ih => exact append (cons rfl (cons rfl nil)) ih

end Straight

theorem BinaryOperator.isStraight_code (operator : BinaryOperator) : operator.code.isStraight := by
  cases operator <;> rfl

theorem UnaryOperator.isStraight_code (operator : UnaryOperator) : operator.code.isStraight := by
  cases operator <;> rfl

theorem KeywordConstant.straight_code (word : KeywordConstant) : Straight word.code := by
  cases word <;> decide

variable (environment : Environment)

mutual

theorem Expression.straight_code :
    (expression : Expression) → Straight (expression.code environment)
  | .mk first more => first.straight_code.append more.straight_code

theorem Operators.straight_code : (operators : Operators) → Straight (operators.code environment)
  | .done => .nil
  | .more operator operand rest =>
    operand.straight_code.append (.cons operator.isStraight_code rest.straight_code)

theorem Term.straight_code : (term : Term) → Straight (term.code environment)
  | .integer _ => .cons rfl .nil
  | .string text => .stringCode text.toList
  | .constant word => word.straight_code
  | .variable name => .push environment name
  | .element name index =>
    ((Straight.push environment name).append index.straight_code).append
      (.cons rfl (.cons rfl (.cons rfl .nil)))
  | .call qualifier callee arguments => .call qualifier callee _ arguments.straight_code
  | .parentheses inner => inner.straight_code
  | .unary operator operand => operand.straight_code.append (.cons operator.isStraight_code .nil)

theorem Arguments.straight_code : (arguments : Arguments) → Straight (arguments.code environment)
  | .done => .nil
  | .more first rest => first.straight_code.append rest.straight_code

end

theorem Subroutine.straight_opening (fields : Nat) (subroutine : Subroutine) :
    Straight (subroutine.opening fields) := by
  unfold opening
  split
  · exact .cons rfl (.cons rfl (.cons rfl .nil))
  · exact .cons rfl (.cons rfl .nil)
  · exact .nil

end Jack
