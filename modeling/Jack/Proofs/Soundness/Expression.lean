import Jack.Proofs.Soundness.Meaning

namespace Jack

theorem Token.terminal_of_identifier {token : Token} (kind : token.kind = .identifier) :
    token.terminal = .name token.lexeme := by
  rw [terminal, kind]

theorem Token.terminal_of_keyword {token : Token} {word : Keyword}
    (kind : token.kind = .keyword word) : token.terminal = .keyword word := by
  rw [terminal, kind]

theorem BinaryOperator.exists_mark {mark : Symbol} {instruction : Instruction}
    (found : mark.binaryInstruction? = some instruction) :
    ∃ operator : BinaryOperator, operator.mark = mark := by
  cases mark <;> simp only [Symbol.binaryInstruction?, reduceCtorEq] at found
  case plus => exact ⟨.add, rfl⟩
  case minus => exact ⟨.subtract, rfl⟩
  case star => exact ⟨.multiply, rfl⟩
  case slash => exact ⟨.divide, rfl⟩
  case amp => exact ⟨.and, rfl⟩
  case pipe => exact ⟨.or, rfl⟩
  case less => exact ⟨.less, rfl⟩
  case greater => exact ⟨.greater, rfl⟩
  case eq => exact ⟨.equal, rfl⟩

namespace Goal

variable {token name : Token} {tokens rest : List Token} {step : Step} {numbering : Numbering}

theorem spells_of_takeCall? (took : takeCall? token name = some step)
    (means : MeansAll tokens rest step.goals) :
    ∃ qualifier callee arguments, .name name.lexeme :: (token :: tokens).map Token.terminal =
      spellCall qualifier callee (Arguments.yield arguments) := by
  unfold takeCall? at took
  split at took <;> simp only [Option.some.injEq, reduceCtorEq] at took
  · rename_i kind
    subst took
    obtain ⟨arguments, isArguments⟩ := means.single
    exact ⟨none, name.lexeme, arguments, by
      simp [spellCall, Token.terminal_of_symbol kind, isArguments]⟩
  · rename_i kind
    subst took
    obtain ⟨callee, arguments, isCall⟩ := means.single
    exact ⟨some name.lexeme, callee, arguments, by
      simp [spellCall, Token.terminal_of_symbol kind, isCall]⟩

/-- A constant is a term by itself. -/
theorem spells_constant (word : KeywordConstant) (kind : token.kind = .keyword word.word)
    (means : MeansAll tokens rest []) :
    ∃ term : Term, (token :: tokens).map Token.terminal = term.yield ∧ term.Ends rest := by
  obtain rfl : tokens = [] := means
  exact ⟨.constant word, by simp [Token.terminal_of_keyword kind, Term.yield], trivial⟩

theorem spells_unary (operator : UnaryOperator) (kind : token.kind = .symbol operator.mark)
    {actions : List Action} (means : MeansAll tokens rest (operand ++ [.perform actions])) :
    ∃ term : Term, (token :: tokens).map Token.terminal = term.yield ∧ term.Ends rest := by
  obtain ⟨first, last, rfl, none, term, isTerm, ends⟩ := means.operand
  obtain rfl : last = [] := none.perform
  refine ⟨.unary operator term, ?_, ends⟩
  simp [Token.terminal_of_symbol kind, Term.yield, isTerm]

theorem spells_of_takeTerm? (took : takeTerm? token = some step)
    (means : MeansAll tokens rest step.goals) :
    ∃ term : Term, (token :: tokens).map Token.terminal = term.yield ∧ term.Ends rest := by
  unfold takeTerm? at took
  split at took <;> rename_i kind <;> simp only [Option.some.injEq, reduceCtorEq] at took <;>
    subst took
  · obtain rfl : tokens = [] := means
    exact ⟨.integer _, by rw [List.map_singleton, Token.terminal, kind]; rfl, trivial⟩
  · obtain rfl : tokens = [] := means
    exact ⟨.string _, by rw [List.map_singleton, Token.terminal, kind]; rfl, trivial⟩
  · exact spells_constant .true kind means
  · exact spells_constant .false kind means
  · exact spells_constant .null kind means
  · exact spells_constant .this kind means
  · obtain ⟨term, isTerm, ends⟩ := means.single
    exact ⟨term, by rw [List.map_cons, Token.terminal_of_identifier kind, isTerm], ends⟩
  · obtain ⟨first, last, rfl, means, expression, isExpression, -⟩ := means.expression
    obtain ⟨closing, _, rfl, isClosing, none⟩ := means.symbol
    obtain rfl := none
    refine ⟨.parentheses expression, ?_, trivial⟩
    simp [Token.terminal_of_symbol kind, Term.yield, isExpression, isClosing]
  · exact spells_unary .negate kind means
  · exact spells_unary .complement kind means

theorem means_operators_take (took : Goal.operators.take? numbering token = some step)
    (means : MeansAll tokens rest step.goals) : Goal.operators.Means (token :: tokens) rest := by
  simp only [take?] at took
  split at took
  · rename_i mark kind
    obtain ⟨instruction, found, rfl⟩ := Option.map_eq_some_iff.1 took
    obtain ⟨operator, rfl⟩ := BinaryOperator.exists_mark found
    obtain ⟨first, _, rfl, means, term, isTerm, ends⟩ := means.operand
    obtain ⟨next, isNext, endsNext⟩ := means.perform.single
    refine ⟨.more operator term next, ?_, ?_, endsNext⟩
    · simp [Token.terminal_of_symbol kind, Operators.yield, isTerm, isNext]
    · rintro rfl
      rw [Operators.yield, List.map_eq_nil_iff] at isNext
      subst isNext
      exact ends
  · exact absurd took (Option.some_ne_none _).symm

theorem means_nameTail_take (took : (Goal.nameTail name).take? numbering token = some step)
    (means : MeansAll tokens rest step.goals) :
    (Goal.nameTail name).Means (token :: tokens) rest := by
  simp only [take?] at took
  split at took
  · rename_i kind
    obtain rfl := Option.some.inj took
    obtain ⟨first, _, rfl, means, index, isIndex, -⟩ := means.expression
    obtain ⟨closing, _, rfl, isClosing, means⟩ := means.symbol
    obtain rfl := means.perform
    refine ⟨.element name.lexeme index, ?_, trivial⟩
    simp [Token.terminal_of_symbol kind, Term.yield, isIndex, isClosing]
  · obtain ⟨qualifier, callee, arguments, isCall⟩ := spells_of_takeCall? took means
    exact ⟨.call qualifier callee arguments, isCall, trivial⟩

theorem means_moreArguments_take {call : Call} {count : Nat}
    (took : (Goal.moreArguments call count).take? numbering token = some step)
    (means : MeansAll tokens rest step.goals) :
    (Goal.moreArguments call count).Means (token :: tokens) rest := by
  simp only [take?] at took
  split at took <;> rename_i kind <;> simp only [Option.some.injEq, reduceCtorEq] at took <;>
    subst took
  · obtain ⟨first, _, rfl, means, expression, isExpression, -⟩ := means.expression
    obtain ⟨arguments, isMore⟩ := means.perform.single
    refine ⟨.more expression arguments, ?_⟩
    simp [Token.terminal_of_symbol kind, Arguments.yieldMore, isExpression, isMore]
  · obtain rfl : tokens = [] := means
    exact ⟨.done, by simp [Token.terminal_of_symbol kind, Arguments.yieldMore]⟩

theorem means_arguments_pass {call : Call}
    (means : MeansAll tokens rest
      (expression ++ [.perform [.argument call 1], .moreArguments call 1])) :
    (Goal.arguments call).Means tokens rest := by
  obtain ⟨first, _, rfl, means, expression, isExpression, -⟩ := means.expression
  obtain ⟨arguments, isMore⟩ := means.perform.single
  refine ⟨.more expression arguments, ?_⟩
  simp [Arguments.yield, isExpression, isMore]

/-- Without an operator next there is none at all. -/
theorem means_operators_pass
    (stays : ∀ token ∈ rest.head?, Goal.operators.take? numbering token = none) :
    Goal.operators.Means [] rest := by
  refine ⟨.done, rfl, ?_⟩
  intro token head mark kind
  have none := stays token head
  simpa only [take?, kind, Option.map_eq_none_iff] using none

/-- A name with nothing that goes on with it is that of a variable. -/
theorem means_nameTail_pass
    (stays : ∀ token ∈ rest.head?, (Goal.nameTail name).take? numbering token = none) :
    (Goal.nameTail name).Means [] rest := by
  refine ⟨.variable name.lexeme, rfl, ?_⟩
  intro token head
  have none := stays token head
  simp only [take?] at none
  refine ⟨fun kind => ?_, fun kind => ?_, fun kind => ?_⟩ <;> simp [takeCall?, kind] at none

end Goal

end Jack
