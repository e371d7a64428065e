import Jack.Proofs.Soundness.Statement

namespace Jack

namespace Goal

variable {token : Token} {tokens rest : List Token} {step : Step} {numbering : Numbering}
  {kind : VarKind} {type : String}

theorem exists_type (member : token.kind ∈ typeKinds) :
    ∃ type : TypeName, token.terminal = type.terminal := by
  simp only [typeKinds, List.mem_cons, List.not_mem_nil, or_false] at member
  rcases member with is | is | is | is
  · exact ⟨.int, Token.terminal_of_keyword is⟩
  · exact ⟨.char, Token.terminal_of_keyword is⟩
  · exact ⟨.boolean, Token.terminal_of_keyword is⟩
  · exact ⟨.named token.lexeme, Token.terminal_of_identifier is⟩

theorem means_variable_take (took : (Goal.variable kind type).take? numbering token = some step)
    (means : MeansAll tokens rest step.goals) :
    (Goal.variable kind type).Means (token :: tokens) rest := by
  obtain ⟨is, rfl⟩ := eq_of_takeIf took
  obtain ⟨names, isMore⟩ := means.single
  intro type
  exact ⟨⟨type, token.lexeme, names⟩, by
    simp [Token.terminal_of_identifier is, isMore, Names.yield]⟩

theorem means_moreVariables_take
    (took : (Goal.moreVariables kind type).take? numbering token = some step)
    (means : MeansAll tokens rest step.goals) :
    (Goal.moreVariables kind type).Means (token :: tokens) rest := by
  simp only [take?] at took
  split at took <;> rename_i is <;> simp only [Option.some.injEq, reduceCtorEq] at took <;>
    subst took
  · obtain ⟨names, isNames⟩ := means.single .int
    obtain ⟨-, isNames⟩ := List.cons_eq_cons.1 isNames
    refine ⟨names.first :: names.more, ?_⟩
    simp [Token.terminal_of_symbol is, isNames]
  · obtain rfl : tokens = [] := means
    exact ⟨[], by simp [Token.terminal_of_symbol is]⟩

theorem means_declaration_take
    (took : (Goal.declaration kind).take? numbering token = some step)
    (means : MeansAll tokens rest step.goals) :
    (Goal.declaration kind).Means (token :: tokens) rest := by
  obtain ⟨is, rfl⟩ := eq_of_takeIf took
  obtain ⟨type, isType⟩ := exists_type is
  obtain ⟨names, isNames⟩ := means.single type
  exact ⟨names, by rw [List.map_cons, isType, isNames]⟩

/-- Variables of one kind in front of others. -/
theorem spells_classVariables (which : ClassKind) (is : token.kind = .keyword which.word)
    (means : MeansAll tokens rest [.declaration kind, .classVariables]) :
    Goal.classVariables.Means (token :: tokens) rest := by
  obtain ⟨first, _, rfl, ⟨names, isNames⟩, means⟩ := means
  obtain ⟨groups, isGroups⟩ := means.single
  refine ⟨⟨which, names⟩ :: groups, ?_⟩
  simp [Token.terminal_of_keyword is, isNames, isGroups, ClassVariables.yield]

theorem means_classVariables_take
    (took : Goal.classVariables.take? numbering token = some step)
    (means : MeansAll tokens rest step.goals) :
    Goal.classVariables.Means (token :: tokens) rest := by
  simp only [take?] at took
  split at took <;> rename_i is <;> simp only [Option.some.injEq, reduceCtorEq] at took <;>
    subst took
  · exact spells_classVariables .statics is means
  · exact spells_classVariables .field is means

theorem means_localVariables_take
    (took : Goal.localVariables.take? numbering token = some step)
    (means : MeansAll tokens rest step.goals) :
    Goal.localVariables.Means (token :: tokens) rest := by
  obtain ⟨is, rfl⟩ := eq_of_takeIf took
  obtain ⟨first, _, rfl, ⟨names, isNames⟩, means⟩ := means
  obtain ⟨groups, isGroups⟩ := means.single
  refine ⟨names :: groups, ?_⟩
  simp [Token.terminal_of_keyword is, isNames, isGroups]

/-- A parameter of a type that was taken. -/
theorem spells_parameter (is : token.kind ∈ typeKinds)
    (means : MeansAll tokens rest [.parameterName type]) :
    ∃ parameter parameters, (token :: tokens).map Token.terminal =
      Parameter.yieldAll (parameter :: parameters) ++ [.symbol .rightParen] := by
  obtain ⟨type, isType⟩ := exists_type is
  obtain ⟨parameter, parameters, isParameters⟩ := means.single type
  exact ⟨parameter, parameters, by rw [List.map_cons, isType, isParameters]⟩

theorem means_parameters_take (took : Goal.parameters.take? numbering token = some step)
    (means : MeansAll tokens rest step.goals) :
    Goal.parameters.Means (token :: tokens) rest := by
  simp only [take?] at took
  split at took
  · rename_i is
    obtain rfl := Option.some.inj took
    obtain rfl : tokens = [] := means
    exact ⟨[], by simp [Token.terminal_of_symbol is, Parameter.yieldAll]⟩
  · split at took <;> rename_i is <;> simp only [Option.some.injEq, reduceCtorEq] at took
    subst took
    obtain ⟨parameter, parameters, isParameters⟩ := spells_parameter is means
    exact ⟨_, isParameters⟩

theorem means_parameterName_take
    (took : (Goal.parameterName type).take? numbering token = some step)
    (means : MeansAll tokens rest step.goals) :
    (Goal.parameterName type).Means (token :: tokens) rest := by
  obtain ⟨is, rfl⟩ := eq_of_takeIf took
  obtain ⟨parameters, isMore⟩ := means.single
  intro type
  exact ⟨⟨type, token.lexeme⟩, parameters, by
    simp [Token.terminal_of_identifier is, isMore, Parameter.yieldAll, Parameter.yield]⟩

theorem means_moreParameters_take
    (took : Goal.moreParameters.take? numbering token = some step)
    (means : MeansAll tokens rest step.goals) :
    Goal.moreParameters.Means (token :: tokens) rest := by
  simp only [take?] at took
  split at took <;> rename_i is <;> simp only [Option.some.injEq, reduceCtorEq] at took <;>
    subst took
  · obtain ⟨parameter, parameters, isParameters⟩ := means.single
    refine ⟨parameter :: parameters, ?_⟩
    rw [List.map_cons, Token.terminal_of_symbol is, isParameters]
    rfl
  · obtain rfl : tokens = [] := means
    exact ⟨[], by simp [Token.terminal_of_symbol is]⟩

/-- A subroutine in front of others. -/
theorem spells_subroutine (which : SubroutineKind) (is : token.kind = .keyword which.word)
    (means : MeansAll tokens rest [.returnType which, .subroutines]) :
    Goal.subroutines.Means (token :: tokens) rest := by
  obtain ⟨first, _, rfl, ⟨subroutine, isSubroutine⟩, means⟩ := means
  obtain ⟨subroutines, isMore⟩ := means.single
  refine ⟨subroutine :: subroutines, ?_⟩
  simp [Token.terminal_of_keyword is, ← isSubroutine, isMore]

theorem means_subroutines_take (took : Goal.subroutines.take? numbering token = some step)
    (means : MeansAll tokens rest step.goals) :
    Goal.subroutines.Means (token :: tokens) rest := by
  simp only [take?] at took
  split at took <;> rename_i is <;> simp only [Option.some.injEq, reduceCtorEq] at took <;>
    subst took
  · exact spells_subroutine .constructor is means
  · exact spells_subroutine .function is means
  · exact spells_subroutine .method is means

theorem means_returnType_take {which : SubroutineKind}
    (took : (Goal.returnType which).take? numbering token = some step)
    (means : MeansAll tokens rest step.goals) :
    (Goal.returnType which).Means (token :: tokens) rest := by
  obtain ⟨is, rfl⟩ := eq_of_takeIf took
  have result : ∃ result, token.terminal = TypeName.terminalOrVoid result := by
    rcases List.mem_cons.1 is with is | is
    · exact ⟨none, Token.terminal_of_keyword is⟩
    · obtain ⟨type, isType⟩ := exists_type is
      exact ⟨some type, isType⟩
  obtain ⟨result, isResult⟩ := result
  obtain ⟨subroutine, isSubroutine⟩ := means.single result
  exact ⟨subroutine, by rw [List.map_cons, isResult, isSubroutine]⟩

theorem means_subroutineName_take {which : SubroutineKind}
    (took : (Goal.subroutineName which).take? numbering token = some step)
    (means : MeansAll tokens rest step.goals) :
    (Goal.subroutineName which).Means (token :: tokens) rest := by
  obtain ⟨is, rfl⟩ := eq_of_takeIf took
  obtain ⟨opening, _, rfl, isOpening, means⟩ := means.symbol
  obtain ⟨listed, _, rfl, ⟨parameters, isParameters⟩, means⟩ := means
  obtain ⟨brace, _, rfl, isBrace, means⟩ := means.symbol
  obtain ⟨held, _, rfl, ⟨locals, isLocals⟩, means⟩ := means
  obtain ⟨inner, _, rfl, ⟨body, isBody⟩, means⟩ := means
  obtain ⟨closing, _, rfl, isClosing, none⟩ := means.symbol
  obtain rfl := none
  intro result
  refine ⟨⟨which, result, token.lexeme, parameters, locals, body⟩, ?_⟩
  simp [Token.terminal_of_identifier is, isOpening, isParameters, isBrace, isLocals, isBody,
    isClosing, Subroutine.yield]

/-- A token that was taken begins what its goal asks for. -/
theorem means_take {goal : Goal} (took : goal.take? numbering token = some step)
    (means : MeansAll tokens rest step.goals) : goal.Means (token :: tokens) rest := by
  match goal, took with
  | .token kind, took =>
    obtain ⟨is, rfl⟩ := eq_of_takeIf took
    obtain rfl : tokens = [] := means
    exact ⟨token, rfl, is⟩
  | .className, took =>
    obtain ⟨is, rfl⟩ := eq_of_takeIf took
    obtain rfl : tokens = [] := means
    exact ⟨token.lexeme, by rw [List.map_singleton, Token.terminal_of_identifier is]⟩
  | .classVariables, took => exact means_classVariables_take took means
  | .subroutines, took => exact means_subroutines_take took means
  | .declaration kind, took => exact means_declaration_take took means
  | .variable kind type, took => exact means_variable_take took means
  | .moreVariables kind type, took => exact means_moreVariables_take took means
  | .returnType kind, took => exact means_returnType_take took means
  | .subroutineName kind, took => exact means_subroutineName_take took means
  | .parameters, took => exact means_parameters_take took means
  | .parameterType, took =>
    obtain ⟨is, rfl⟩ := eq_of_takeIf took
    exact spells_parameter is means
  | .parameterName type, took => exact means_parameterName_take took means
  | .moreParameters, took => exact means_moreParameters_take took means
  | .localVariables, took => exact means_localVariables_take took means
  | .statements, took => exact means_of_takeStatement? took means
  | .letName, took =>
    obtain ⟨is, rfl⟩ := eq_of_takeIf took
    obtain ⟨statement, isStatement⟩ := means.single
    exact ⟨statement, by rw [List.map_cons, Token.terminal_of_identifier is, isStatement]⟩
  | .letTarget name, took => exact means_letTarget_take took means
  | .elseBranch, took => exact means_elseBranch_take took means
  | .doCall, took =>
    obtain ⟨is, rfl⟩ := eq_of_takeIf took
    obtain ⟨qualifier, callee, arguments, isCall⟩ := means.single
    exact ⟨qualifier, callee, arguments, by
      rw [List.map_cons, Token.terminal_of_identifier is, isCall]⟩
  | .returnValue, took =>
    obtain ⟨is, rfl⟩ := eq_of_takeIf took
    obtain rfl : tokens = [] := means
    exact ⟨.returnNothing, by rw [List.map_singleton, Token.terminal_of_symbol is]; rfl⟩
  | .term, took => exact spells_of_takeTerm? took means
  | .operators, took => exact means_operators_take took means
  | .nameTail name, took => exact means_nameTail_take took means
  | .callTail name, took => exact spells_of_takeCall? took means
  | .calleeName qualifier, took =>
    obtain ⟨is, rfl⟩ := eq_of_takeIf took
    obtain ⟨arguments, isArguments⟩ := means.single
    exact ⟨token.lexeme, arguments, by
      rw [List.map_cons, Token.terminal_of_identifier is, isArguments, spellCall]⟩
  | .openCall call, took =>
    obtain ⟨is, rfl⟩ := eq_of_takeIf took
    obtain ⟨arguments, isArguments⟩ := means.single
    exact ⟨arguments, by rw [List.map_cons, Token.terminal_of_symbol is, isArguments]⟩
  | .arguments call, took =>
    obtain ⟨is, rfl⟩ := eq_of_takeIf took
    obtain rfl : tokens = [] := means
    exact ⟨.done, by rw [List.map_singleton, Token.terminal_of_symbol is]; rfl⟩
  | .moreArguments call count, took => exact means_moreArguments_take took means

/-- What a goal leaves behind without a token is all that it asks for. -/
theorem means_pass {goal : Goal} {line : Nat}
    (stays : ∀ token ∈ (tokens ++ rest).head?, goal.take? numbering token = none)
    (moved : goal.otherwise line = .ok step) (means : MeansAll tokens rest step.goals) :
    goal.Means tokens rest := by
  cases goal <;> simp only [otherwise, Except.ok.injEq, reduceCtorEq] at moved <;> subst moved
  case perform => exact means
  case nest => exact means
  case classVariables =>
    obtain rfl : tokens = [] := means
    exact ⟨[], rfl⟩
  case localVariables =>
    obtain rfl : tokens = [] := means
    exact ⟨[], rfl⟩
  case subroutines =>
    obtain rfl : tokens = [] := means
    exact ⟨[], rfl⟩
  case statements =>
    obtain rfl : tokens = [] := means
    exact ⟨.done, rfl⟩
  case elseBranch => exact .inl means
  case operators =>
    obtain rfl : tokens = [] := means
    exact means_operators_pass stays
  case returnValue => exact means_returnValue_pass means
  case nameTail =>
    obtain rfl : tokens = [] := means
    exact means_nameTail_pass stays
  case arguments => exact means_arguments_pass means

theorem MeansAll.wholeClass (means : MeansAll tokens rest Goal.wholeClass) :
    ∃ tree : ClassTree, tokens.map Token.terminal = tree.yield := by
  obtain ⟨_, _, rfl, ⟨word, rfl, kind⟩, means⟩ := means
  obtain ⟨first, _, rfl, ⟨name, isName⟩, means⟩ := means
  obtain ⟨opening, _, rfl, isOpening, means⟩ := means.symbol
  obtain ⟨held, _, rfl, ⟨groups, isGroups⟩, means⟩ := means
  obtain ⟨inner, _, rfl, ⟨subroutines, isInner⟩, means⟩ := means
  obtain ⟨closing, _, rfl, isClosing, none⟩ := means.symbol
  obtain rfl := none
  refine ⟨⟨name, groups, subroutines⟩, ?_⟩
  simp [Token.terminal_of_keyword kind, isName, isOpening, isGroups, isInner, isClosing,
    ClassTree.yield]

end Goal

end Jack
