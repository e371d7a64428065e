import Jack.Proofs.Soundness.Expression

namespace Jack

namespace Goal

variable {token name : Token} {tokens rest : List Token} {step : Step} {numbering : Numbering}

/-- A statement in front of others. -/
theorem spells_statement (first : List Token) {last : List Token} (statement : Statement)
    (isStatement : first.map Token.terminal = statement.yield)
    (means : MeansAll last rest [.statements]) :
    Goal.statements.Means (first ++ last) rest := by
  obtain ⟨others, isOthers⟩ := means.single
  exact ⟨.more statement others, by rw [List.map_append, isStatement, isOthers, Statements.yield]⟩

theorem means_if (kind : token.kind = .keyword .kwIf) (number : Nat)
    (means : MeansAll tokens rest (ifStatement number ++ [.statements])) :
    Goal.statements.Means (token :: tokens) rest := by
  rw [ifStatement, List.append_assoc, List.cons_append, List.append_assoc] at means
  obtain ⟨front, _, rfl, means, condition, body, isBranch⟩ := means.branch
  obtain ⟨middle, last, rfl, isElse, others⟩ := means.perform
  rcases isElse with rfl | ⟨otherwise, isElse⟩
  · refine spells_statement (token :: front) (.ifThen condition body) ?_
      others.perform
    simp [Token.terminal_of_keyword kind, Statement.yield, isBranch]
  · have whole : token :: (front ++ (middle ++ last)) = token :: (front ++ middle) ++ last := by
      simp
    rw [whole]
    refine spells_statement (token :: (front ++ middle)) (.ifElse condition body otherwise) ?_ others.perform
    simp [Token.terminal_of_keyword kind, Statement.yield, isBranch, isElse]

theorem means_while (kind : token.kind = .keyword .kwWhile) (number : Nat)
    (means : MeansAll tokens rest (whileStatement number ++ [.statements])) :
    Goal.statements.Means (token :: tokens) rest := by
  rw [whileStatement, List.append_assoc, List.cons_append, List.append_assoc] at means
  obtain ⟨front, last, rfl, means, condition, body, isBranch⟩ := means.branch
  refine spells_statement (token :: front) (.loop condition body) ?_ means.perform
  simp [Token.terminal_of_keyword kind, Statement.yield, isBranch]

theorem means_of_takeStatement? (took : takeStatement? numbering token = some step)
    (means : MeansAll tokens rest step.goals) :
    Goal.statements.Means (token :: tokens) rest := by
  unfold takeStatement? at took
  split at took <;> rename_i kind <;> simp only [Option.some.injEq, reduceCtorEq] at took <;>
    subst took
  · obtain ⟨first, last, rfl, ⟨statement, isStatement⟩, means⟩ := means
    refine spells_statement (token :: first) statement ?_ means
    rw [List.map_cons, Token.terminal_of_keyword kind, isStatement]
  · exact means_if kind _ means
  · exact means_while kind _ means
  · obtain ⟨first, _, rfl, ⟨qualifier, callee, arguments, isCall⟩, means⟩ := means
    obtain ⟨closing, last, rfl, isClosing, means⟩ := means.symbol
    have whole : token :: (first ++ closing :: last) = token :: (first ++ [closing]) ++ last := by
      simp
    rw [whole]
    refine spells_statement (token :: (first ++ [closing])) (.doCall qualifier callee arguments) ?_ means.perform
    simp [Token.terminal_of_keyword kind, Statement.yield, isCall, isClosing]
  · obtain ⟨first, last, rfl, ⟨statement, isStatement⟩, means⟩ := means
    refine spells_statement (token :: first) statement ?_ means
    rw [List.map_cons, Token.terminal_of_keyword kind, isStatement]

theorem means_letTarget_take (took : (Goal.letTarget name).take? numbering token = some step)
    (means : MeansAll tokens rest step.goals) :
    (Goal.letTarget name).Means (token :: tokens) rest := by
  simp only [take?] at took
  split at took <;> rename_i kind <;> simp only [Option.some.injEq, reduceCtorEq] at took <;>
    subst took
  · rw [elementAssignment, List.append_assoc, List.append_assoc] at means
    obtain ⟨place, _, rfl, means, index, isIndex, -⟩ := means.expression
    obtain ⟨closing, _, rfl, isClosing, means⟩ := means.symbol
    obtain ⟨mark, _, rfl, isMark, means⟩ := means.perform.symbol
    obtain ⟨inner, _, rfl, means, value, isValue, -⟩ := means.expression
    obtain ⟨semicolon, _, rfl, isSemicolon, none⟩ := means.perform.symbol
    obtain rfl := none
    refine ⟨.setElement name.lexeme index value, ?_⟩
    simp [Token.terminal_of_symbol kind, Statement.yield, isIndex, isClosing, isMark, isValue,
      isSemicolon]
  · obtain ⟨inner, _, rfl, means, value, isValue, -⟩ := means.expression
    obtain ⟨semicolon, _, rfl, isSemicolon, none⟩ := means.perform.symbol
    obtain rfl := none
    refine ⟨.setVariable name.lexeme value, ?_⟩
    simp [Token.terminal_of_symbol kind, Statement.yield, isValue, isSemicolon]

theorem means_elseBranch_take (took : Goal.elseBranch.take? numbering token = some step)
    (means : MeansAll tokens rest step.goals) :
    Goal.elseBranch.Means (token :: tokens) rest := by
  obtain ⟨kind, rfl⟩ := eq_of_takeIf took
  have means : MeansAll tokens rest (block ++ []) := means
  obtain ⟨first, last, rfl, none, body, isBody⟩ := means.block
  obtain rfl := none
  refine .inr ⟨body, ?_⟩
  simp [Token.terminal_of_keyword kind, isBody]

theorem means_returnValue_pass {actions : List Action}
    (means : MeansAll tokens rest (expression ++ [.symbol .semicolon, .perform actions])) :
    Goal.returnValue.Means tokens rest := by
  obtain ⟨first, _, rfl, means, value, isValue, -⟩ := means.expression
  obtain ⟨semicolon, _, rfl, isSemicolon, means⟩ := means.symbol
  obtain rfl := means.perform
  refine ⟨.returnValue value, ?_⟩
  simp [Statement.yield, isValue, isSemicolon]

end Goal

end Jack
