import Jack.Proofs.Completeness.Statement

namespace Jack

namespace Goal

/-- The tokens that are taken for a goal spell what it asks for, in front of the rest. The beginning
of that may have been taken before. -/
def Means (tokens rest : List Token) : Goal → Prop
  | .token kind => ∃ token, tokens = [token] ∧ token.kind = kind
  | .perform _ | .nest => tokens = []
  | .className => ∃ name, tokens.map Token.terminal = [.name name]
  | .classVariables => ∃ groups : List ClassVariables,
      tokens.map Token.terminal = groups.flatMap ClassVariables.yield
  | .subroutines => ∃ subroutines : List Subroutine,
      tokens.map Token.terminal = subroutines.flatMap Subroutine.yield
  | .declaration _ => ∃ names, tokens.map Token.terminal = Names.yield names
  | .variable .. => ∀ type : TypeName, ∃ names, type.terminal :: tokens.map Token.terminal = Names.yield names
  | .moreVariables .. => ∃ names : List String, tokens.map Token.terminal =
      names.flatMap (fun name => [.symbol .comma, .name name]) ++ [.symbol .semicolon]
  | .returnType kind => ∃ subroutine,
      .keyword kind.word :: tokens.map Token.terminal = Subroutine.yield subroutine
  | .subroutineName kind => ∀ result, ∃ subroutine,
      .keyword kind.word :: TypeName.terminalOrVoid result :: tokens.map Token.terminal =
        Subroutine.yield subroutine
  | .parameters => ∃ parameters,
      tokens.map Token.terminal = Parameter.yieldAll parameters ++ [.symbol .rightParen]
  | .parameterType => ∃ parameter parameters, tokens.map Token.terminal =
      Parameter.yieldAll (parameter :: parameters) ++ [.symbol .rightParen]
  | .parameterName _ => ∀ type : TypeName, ∃ parameter parameters,
      type.terminal :: tokens.map Token.terminal =
        Parameter.yieldAll (parameter :: parameters) ++ [.symbol .rightParen]
  | .moreParameters => ∃ parameters : List Parameter, tokens.map Token.terminal =
      parameters.flatMap (fun parameter => .symbol .comma :: Parameter.yield parameter) ++
        [.symbol .rightParen]
  | .localVariables => ∃ groups : List Names,
      tokens.map Token.terminal = groups.flatMap fun names => .keyword .kwVar :: Names.yield names
  | .statements => ∃ statements, tokens.map Token.terminal = Statements.yield statements
  | .letName => ∃ statement,
      .keyword .kwLet :: tokens.map Token.terminal = Statement.yield statement
  | .letTarget name => ∃ statement,
      .keyword .kwLet :: .name name.lexeme :: tokens.map Token.terminal = Statement.yield statement
  | .elseBranch => tokens = [] ∨ ∃ body, tokens.map Token.terminal =
      .keyword .kwElse :: .symbol .leftBrace :: (Statements.yield body ++ [.symbol .rightBrace])
  | .doCall => ∃ qualifier callee arguments,
      tokens.map Token.terminal = spellCall qualifier callee (Arguments.yield arguments)
  | .returnValue => ∃ statement,
      .keyword .kwReturn :: tokens.map Token.terminal = Statement.yield statement
  | .term => ∃ term : Term, tokens.map Token.terminal = term.yield ∧ term.Ends rest
  | .operators => ∃ operators : Operators,
      tokens.map Token.terminal = operators.yield ∧ operators.Ends rest
  | .nameTail name => ∃ term : Term,
      .name name.lexeme :: tokens.map Token.terminal = term.yield ∧ term.Ends rest
  | .callTail name => ∃ qualifier callee arguments,
      .name name.lexeme :: tokens.map Token.terminal =
        spellCall qualifier callee (Arguments.yield arguments)
  | .calleeName _ => ∃ callee arguments, tokens.map Token.terminal =
      spellCall none callee (Arguments.yield arguments)
  | .openCall _ => ∃ arguments, tokens.map Token.terminal =
      .symbol .leftParen :: (Arguments.yield arguments ++ [.symbol .rightParen])
  | .arguments _ => ∃ arguments,
      tokens.map Token.terminal = Arguments.yield arguments ++ [.symbol .rightParen]
  | .moreArguments .. => ∃ arguments,
      tokens.map Token.terminal = Arguments.yieldMore arguments ++ [.symbol .rightParen]

/-- What goals take one after the other. -/
def MeansAll (tokens rest : List Token) : List Goal → Prop
  | [] => tokens = []
  | goal :: goals => ∃ first last, tokens = first ++ last ∧ goal.Means first (last ++ rest) ∧
      MeansAll last rest goals

/-- What comes of a goal that takes a token under a condition. -/
theorem eq_of_takeIf {made step : Step} {holds : Prop} [Decidable holds]
    (took : (if holds then some made else none) = some step) : holds ∧ step = made := by
  split at took
  · exact ⟨‹holds›, (Option.some.inj took).symm⟩
  · exact absurd took (Option.some_ne_none step).symm

namespace MeansAll

variable {goal : Goal} {goals others : List Goal} {tokens rest : List Token}

theorem append (means : MeansAll tokens rest (goals ++ others)) :
    ∃ first last, tokens = first ++ last ∧ MeansAll first (last ++ rest) goals ∧
      MeansAll last rest others := by
  induction goals generalizing tokens with
  | nil => exact ⟨[], tokens, rfl, rfl, means⟩
  | cons goal goals ih =>
    obtain ⟨first, last, rfl, own, more⟩ := means
    obtain ⟨front, back, rfl, all, left⟩ := ih more
    rw [List.append_assoc] at own
    exact ⟨first ++ front, back, (List.append_assoc ..).symm, ⟨first, front, rfl, own, all⟩, left⟩

theorem single (means : MeansAll tokens rest [goal]) : goal.Means tokens rest := by
  obtain ⟨first, last, rfl, own, rfl⟩ := means
  rwa [List.append_nil]

theorem perform {actions : List Action} (means : MeansAll tokens rest (.perform actions :: goals)) :
    MeansAll tokens rest goals := by
  obtain ⟨first, last, rfl, (nothing : first = []), more⟩ := means
  subst nothing
  exact more

theorem nest (means : MeansAll tokens rest (.nest :: goals)) : MeansAll tokens rest goals := by
  obtain ⟨first, last, rfl, (nothing : first = []), more⟩ := means
  subst nothing
  exact more

theorem symbol {mark : Symbol} (means : MeansAll tokens rest (.symbol mark :: goals)) :
    ∃ token last, tokens = token :: last ∧ token.terminal = .symbol mark ∧
      MeansAll last rest goals := by
  obtain ⟨_, last, rfl, ⟨token, rfl, kind⟩, more⟩ := means
  exact ⟨token, last, rfl, Token.terminal_of_symbol kind, more⟩

/-- A term on a level of its own. -/
theorem operand (means : MeansAll tokens rest (Goal.operand ++ goals)) :
    ∃ first last, tokens = first ++ last ∧ MeansAll last rest goals ∧
      ∃ term : Term, first.map Token.terminal = term.yield ∧ term.Ends (last ++ rest) := by
  obtain ⟨first, last, rfl, own, more⟩ := means.nest
  exact ⟨first, last, rfl, more.perform, own⟩

theorem expression (means : MeansAll tokens rest (Goal.expression ++ goals)) :
    ∃ first last, tokens = first ++ last ∧ MeansAll last rest goals ∧
      ∃ expression : Expression,
        first.map Token.terminal = expression.yield ∧ expression.Ends (last ++ rest) := by
  have means : MeansAll tokens rest (Goal.operand ++ .operators :: goals) := means
  obtain ⟨front, _, rfl, more, term, isTerm, ends⟩ := means.operand
  obtain ⟨back, last, rfl, ⟨operators, isMore, endsMore⟩, left⟩ := more
  refine ⟨front ++ back, last, (List.append_assoc ..).symm, left, .mk term operators, ?_, ?_, ?_⟩
  · rw [List.map_append, isTerm, isMore, Expression.yield]
  · rintro rfl
    rw [Operators.yield, List.map_eq_nil_iff] at isMore
    subst isMore
    exact ends
  · exact endsMore

theorem block (means : MeansAll tokens rest (Goal.block ++ goals)) :
    ∃ first last, tokens = first ++ last ∧ MeansAll last rest goals ∧
      ∃ body : Statements, first.map Token.terminal =
        .symbol .leftBrace :: (body.yield ++ [.symbol .rightBrace]) := by
  obtain ⟨opening, tokens, rfl, isOpening, means⟩ := symbol means
  obtain ⟨inner, _, rfl, ⟨body, isBody⟩, means⟩ := means.nest
  obtain ⟨closing, last, rfl, isClosing, means⟩ := symbol means.perform
  refine ⟨opening :: (inner ++ [closing]), last, ?_, means, body, ?_⟩
  · simp
  · simp [isOpening, isBody, isClosing]

theorem condition (means : MeansAll tokens rest (Goal.condition ++ goals)) :
    ∃ first last, tokens = first ++ last ∧ MeansAll last rest goals ∧
      ∃ expression : Expression, first.map Token.terminal =
        .symbol .leftParen :: (expression.yield ++ [.symbol .rightParen]) := by
  obtain ⟨opening, tokens, rfl, isOpening, means⟩ := symbol means
  have means : MeansAll tokens rest (Goal.expression ++ .symbol .rightParen :: goals) := means
  obtain ⟨inner, _, rfl, means, expression, isInner, -⟩ := means.expression
  obtain ⟨closing, last, rfl, isClosing, means⟩ := symbol means
  refine ⟨opening :: (inner ++ [closing]), last, ?_, means, expression, ?_⟩
  · simp
  · simp [isOpening, isInner, isClosing]

/-- A condition and the statements that depend on it. -/
theorem branch {actions : List Action}
    (means : MeansAll tokens rest (Goal.condition ++ .perform actions :: (Goal.block ++ goals))) :
    ∃ first last, tokens = first ++ last ∧ MeansAll last rest goals ∧
      ∃ (condition : Expression) (body : Statements),
        first.map Token.terminal = spellBranch condition.yield body.yield := by
  obtain ⟨front, _, rfl, means, condition, isCondition⟩ := means.condition
  obtain ⟨back, last, rfl, means, body, isBody⟩ := means.perform.block
  refine ⟨front ++ back, last, (List.append_assoc ..).symm, means, condition, body, ?_⟩
  simp [isCondition, isBody, spellBranch]

end MeansAll

end Goal

end Jack
