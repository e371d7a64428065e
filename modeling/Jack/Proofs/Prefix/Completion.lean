import Jack.Proofs.Prefix.Shape
import Jack.Proofs.Soundness.Class

namespace Jack

namespace Goal

/-- Kinds of tokens that are enough for a goal. Nothing is enough for operators only if no
operator stands next. -/
def least : Goal → List Token.Kind
  | .token kind => [kind]
  | .perform _ | .nest | .classVariables | .subroutines | .localVariables | .statements
  | .operators => []
  | .className => [.identifier]
  | .declaration _ => [.identifier, .identifier, .symbol .semicolon]
  | .variable .. => [.identifier, .symbol .semicolon]
  | .moreVariables .. | .returnValue => [.symbol .semicolon]
  | .returnType _ =>
    [.keyword .kwVoid, .identifier, .symbol .leftParen, .symbol .rightParen, .symbol .leftBrace,
     .symbol .rightBrace]
  | .subroutineName _ =>
    [.identifier, .symbol .leftParen, .symbol .rightParen, .symbol .leftBrace, .symbol .rightBrace]
  | .parameters | .moreParameters | .arguments _ | .moreArguments .. => [.symbol .rightParen]
  | .parameterType => [.identifier, .identifier, .symbol .rightParen]
  | .parameterName _ => [.identifier, .symbol .rightParen]
  | .letName => [.identifier, .symbol .eq, .keyword .kwNull, .symbol .semicolon]
  | .letTarget _ => [.symbol .eq, .keyword .kwNull, .symbol .semicolon]
  | .elseBranch => [.keyword .kwElse, .symbol .leftBrace, .symbol .rightBrace]
  | .doCall | .calleeName _ => [.identifier, .symbol .leftParen, .symbol .rightParen]
  | .term => [.keyword .kwNull]
  | .nameTail _ | .callTail _ | .openCall _ => [.symbol .leftParen, .symbol .rightParen]

/-- Tokens that are enough for goals. -/
def completion (goals : List Goal) : List Token :=
  (goals.flatMap least).map Token.bare

theorem completion_cons (goal : Goal) (goals : List Goal) :
    completion (goal :: goals) = goal.least.map Token.bare ++ completion goals := by
  rw [completion, List.flatMap_cons, List.map_append]
  rfl

/-- No operator stands first in what is enough for the goals behind operators. -/
def Settled : List Goal → Prop
  | [] => True
  | goal :: goals => (goal = .operators → EndsOperators (completion goals)) ∧ Settled goals

theorem means_least (goal : Goal) (rest : List Token)
    (ends : goal = .operators → EndsOperators rest) :
    goal.Means (goal.least.map Token.bare) rest := by
  match goal, ends with
  | .token kind, _ => exact ⟨Token.bare kind, rfl, rfl⟩
  | .perform _, _ | .nest, _ => rfl
  | .className, _ => exact ⟨"", rfl⟩
  | .classVariables, _ | .subroutines, _ | .localVariables, _ => exact ⟨[], rfl⟩
  | .declaration _, _ => exact ⟨⟨.named "", "", []⟩, rfl⟩
  | .variable .., _ => exact fun type => ⟨⟨type, "", []⟩, rfl⟩
  | .moreVariables .., _ => exact ⟨[], rfl⟩
  | .returnType kind, _ => exact ⟨⟨kind, none, "", [], [], .done⟩, rfl⟩
  | .subroutineName kind, _ => exact fun result => ⟨⟨kind, result, "", [], [], .done⟩, rfl⟩
  | .parameters, _ => exact ⟨[], rfl⟩
  | .parameterType, _ => exact ⟨⟨.named "", ""⟩, [], rfl⟩
  | .parameterName _, _ => exact fun type => ⟨⟨type, ""⟩, [], rfl⟩
  | .moreParameters, _ => exact ⟨[], rfl⟩
  | .statements, _ => exact ⟨.done, rfl⟩
  | .letName, _ => exact ⟨.setVariable "" (.mk (.constant .null) .done), rfl⟩
  | .letTarget name, _ => exact ⟨.setVariable name.lexeme (.mk (.constant .null) .done), rfl⟩
  | .elseBranch, _ => exact .inr ⟨.done, rfl⟩
  | .doCall, _ => exact ⟨none, "", .done, rfl⟩
  | .returnValue, _ => exact ⟨.returnNothing, rfl⟩
  | .term, _ => exact ⟨.constant .null, rfl, trivial⟩
  | .operators, ends => exact ⟨.done, rfl, ends rfl⟩
  | .nameTail name, _ => exact ⟨.call none name.lexeme .done, rfl, trivial⟩
  | .callTail name, _ => exact ⟨none, name.lexeme, .done, rfl⟩
  | .calleeName _, _ => exact ⟨"", .done, rfl⟩
  | .openCall _, _ | .arguments _, _ | .moreArguments .., _ => exact ⟨.done, rfl⟩

theorem means_completion (goals : List Goal) (settled : Settled goals) :
    MeansAll (completion goals) [] goals := by
  induction goals with
  | nil => rfl
  | cons goal goals ih =>
    have own := means_least goal (completion goals) settled.1
    refine ⟨goal.least.map Token.bare, completion goals, completion_cons goal goals, ?_,
      ih settled.2⟩
    rwa [List.append_nil]

variable {goal : Goal} {goals : List Goal} {token name : Token} {numbering : Numbering}
  {step : Step}

theorem endsOperators_bare (mark : Symbol) (other : mark.binaryInstruction? = none)
    (rest : List Token) : EndsOperators (Token.bare (.symbol mark) :: rest) := by
  intro token head found kind
  obtain rfl := Option.mem_some_iff.1 head
  cases kind
  exact other

/-- A symbol that is no operator settles the operators in front of it. -/
theorem endsOperators_symbol (mark : Symbol) (other : mark.binaryInstruction? = none)
    (goals : List Goal) : EndsOperators (completion (.symbol mark :: goals)) := by
  rw [completion_cons]
  exact endsOperators_bare mark other _

theorem endsOperators_perform (actions : List Action) (ends : EndsOperators (completion goals)) :
    EndsOperators (completion (.perform actions :: goals)) :=
  ends

theorem endsOperators_moreArguments (call : Call) (count : Nat) (goals : List Goal) :
    EndsOperators (completion (.moreArguments call count :: goals)) :=
  endsOperators_symbol .rightParen rfl goals

theorem settled_operators (goals : List Goal) :
    Settled (.operators :: goals) ↔ EndsOperators (completion goals) ∧ Settled goals :=
  and_congr_left' (forall_prop_of_true rfl)

/-- All other goals settle nothing and need not be settled. -/
theorem settled_cons (other : goal ≠ .operators) : Settled (goal :: goals) ↔ Settled goals :=
  and_iff_right fun same => absurd same other

theorem symbol_ne_operators (mark : Symbol) : Goal.symbol mark ≠ .operators :=
  Goal.noConfusion

theorem settled_operand (goals : List Goal) : Settled (operand ++ goals) ↔ Settled goals := by
  simp [operand, settled_cons]

/-- An expression in front of goals that go on with no operator. -/
theorem settled_expression (ends : EndsOperators (completion goals)) :
    Settled (expression ++ goals) ↔ Settled goals := by
  simp [expression, settled_cons, settled_operators, ends]

theorem settled_condition (goals : List Goal) : Settled (condition ++ goals) ↔ Settled goals := by
  have inside := settled_expression (endsOperators_symbol .rightParen rfl goals)
  simpa [condition, settled_cons, symbol_ne_operators] using inside

theorem settled_block (goals : List Goal) : Settled (block ++ goals) ↔ Settled goals := by
  simp [block, settled_cons, symbol_ne_operators]

/-- Both expressions of an assignment to an element are closed. -/
theorem settled_elementAssignment (settled : Settled goals) :
    Settled (elementAssignment ++ goals) := by
  have value := settled_expression (endsOperators_perform
    [.emit (.pop .temp 0), .emit (.pop .pointer 1), .emit (.push .temp 0), .emit (.pop .that 0)]
    (endsOperators_symbol .semicolon rfl goals))
  have index := settled_expression (endsOperators_symbol .rightBracket rfl
    (.perform [.emit (.operate .add)] :: .symbol .eq :: (expression ++ .perform
      [.emit (.pop .temp 0), .emit (.pop .pointer 1), .emit (.push .temp 0), .emit (.pop .that 0)]
        :: .symbol .semicolon :: goals)))
  simp only [settled_cons, symbol_ne_operators, value, ne_eq, reduceCtorEq, not_false_eq_true]
    at index
  simpa [elementAssignment] using index.2 settled

/-- An argument is closed by what ends its call. -/
theorem settled_argument (call : Call) (count : Nat) (settled : Settled goals) :
    Settled
      (expression ++ .perform [.argument call count] :: .moreArguments call count :: goals) := by
  rw [settled_expression (endsOperators_perform _ (endsOperators_moreArguments call count goals))]
  simpa [settled_cons] using settled

theorem settled_takeCall? (took : takeCall? token name = some step) (settled : Settled goals) :
    Settled (step.goals ++ goals) := by
  unfold takeCall? at took
  split at took <;> simp only [Option.some.injEq, reduceCtorEq] at took <;> subst took <;>
    simpa [settled_cons] using settled

theorem settled_takeStatement? (took : takeStatement? numbering token = some step)
    (settled : Settled goals) : Settled (step.goals ++ goals) := by
  unfold takeStatement? at took
  split at took <;> simp only [Option.some.injEq, reduceCtorEq] at took <;> subst took <;>
    simpa [ifStatement, whileStatement, settled_condition, settled_block, settled_cons,
      symbol_ne_operators] using settled

theorem settled_takeTerm? (took : takeTerm? token = some step) (settled : Settled goals) :
    Settled (step.goals ++ goals) := by
  have closed := settled_expression (endsOperators_symbol .rightParen rfl goals)
  unfold takeTerm? at took
  split at took <;> simp only [Option.some.injEq, reduceCtorEq] at took <;> subst took <;>
    simp [settled_operand, settled_cons, symbol_ne_operators, closed, settled]

theorem settled_take (took : goal.take? numbering token = some step)
    (settled : Settled (goal :: goals)) : Settled (step.goals ++ goals) := by
  obtain ⟨own, others⟩ := settled
  cases goal <;> simp only [take?] at took
  case statements => exact settled_takeStatement? took others
  case term => exact settled_takeTerm? took others
  case callTail => exact settled_takeCall? took others
  case operators =>
    split at took
    · obtain ⟨instruction, -, rfl⟩ := Option.map_eq_some_iff.1 took
      have ends := own rfl
      simpa [settled_operand, settled_cons, settled_operators] using ⟨ends, others⟩
    · exact absurd took (Option.some_ne_none _).symm
  case nameTail name =>
    split at took
    · obtain rfl := Option.some.inj took
      have closed := settled_expression (endsOperators_symbol .rightBracket rfl
        (.perform [.emit (.operate .add), .emit (.pop .pointer 1), .emit (.push .that 0)] :: goals))
      simpa [element, settled_cons, symbol_ne_operators, others] using closed
    · exact settled_takeCall? took others
  case letTarget name =>
    split at took
    · obtain rfl := Option.some.inj took
      exact settled_elementAssignment others
    · obtain rfl := Option.some.inj took
      have closed := settled_expression
        (endsOperators_perform [.store name] (endsOperators_symbol .semicolon rfl goals))
      simpa [settled_cons, symbol_ne_operators, others] using closed
    · exact absurd took (Option.some_ne_none _).symm
  case moreArguments call count =>
    split at took
    · obtain rfl := Option.some.inj took
      simpa using settled_argument call (count + 1) others
    · obtain rfl := Option.some.inj took
      exact others
    · exact absurd took (Option.some_ne_none _).symm
  all_goals
    repeat' split at took
  all_goals
    simp only [Option.some.injEq, reduceCtorEq] at took
  all_goals
    subst took
    simp [settled_block, settled_cons, symbol_ne_operators, others]

theorem settled_otherwise {line : Nat} (moved : goal.otherwise line = .ok step)
    (settled : Settled (goal :: goals)) : Settled (step.goals ++ goals) := by
  obtain ⟨own, others⟩ := settled
  cases goal <;> simp only [otherwise, Except.ok.injEq, reduceCtorEq] at moved <;> subst moved
  case returnValue =>
    have closed := settled_expression
      (endsOperators_symbol .semicolon rfl (.perform [.emit .ret] :: goals))
    simpa [settled_cons, symbol_ne_operators, others] using closed
  case arguments call =>
    simpa using settled_argument call 1 others
  all_goals exact others

theorem settled_wholeClass : Settled wholeClass := by
  simp [wholeClass, Settled, symbol, keyword]

end Goal

end Jack
