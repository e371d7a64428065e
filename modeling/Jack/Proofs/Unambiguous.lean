import Jack.Proofs.Syntax

namespace Jack

/-- A symbol stands next that closes an expression. -/
def ClosesExpression (rest : List Terminal) : Prop :=
  ∃ mark ∈ [Symbol.rightParen, .rightBracket, .comma, .semicolon], rest.head? = some (.symbol mark)

/-- A symbol stands next that does not go on with a name. -/
def ClosesTerm (rest : List Terminal) : Prop :=
  ∃ mark ∉ [Symbol.leftBracket, .leftParen, .dot], rest.head? = some (.symbol mark)

theorem ClosesExpression.closesTerm {rest : List Terminal} (closes : ClosesExpression rest) :
    ClosesTerm rest := by
  obtain ⟨mark, member, head⟩ := closes
  exact ⟨mark, by revert member; cases mark <;> decide, head⟩

theorem BinaryOperator.mark_injective {first second : BinaryOperator}
    (same : first.mark = second.mark) : first = second := by
  cases first <;> cases second <;> first | rfl | cases same

theorem UnaryOperator.mark_injective {first second : UnaryOperator}
    (same : first.mark = second.mark) : first = second := by
  cases first <;> cases second <;> first | rfl | cases same

theorem KeywordConstant.word_injective {first second : KeywordConstant}
    (same : first.word = second.word) : first = second := by
  cases first <;> cases second <;> first | rfl | cases same

theorem Operators.closesTerm {rest : List Terminal} (closes : ClosesExpression rest)
    (operators : Operators) : ClosesTerm (operators.yield ++ rest) := by
  cases operators with
  | done => exact closes.closesTerm
  | more operator operand next => exact ⟨operator.mark, by cases operator <;> decide, rfl⟩

theorem Operators.mark_not_closer (operator : BinaryOperator) {rest more : List Terminal}
    (closes : ClosesExpression rest) : rest ≠ .symbol operator.mark :: more := by
  rintro rfl
  obtain ⟨mark, member, head⟩ := closes
  obtain rfl : operator.mark = mark := by simpa using head
  cases operator <;> exact absurd member (by decide)

theorem closesArguments {rest : List Terminal} (arguments : Arguments) :
    ClosesExpression (arguments.yieldMore ++ .symbol .rightParen :: rest) := by
  cases arguments with
  | done => exact ⟨.rightParen, by decide, rfl⟩
  | more first others => exact ⟨.comma, by decide, rfl⟩

theorem closesExpression {mark : Symbol} (rest : List Terminal)
    (member : mark ∈ [Symbol.rightParen, .rightBracket, .comma, .semicolon]) :
    ClosesExpression (.symbol mark :: rest) :=
  ⟨mark, member, rfl⟩

theorem ClosesTerm.ne {rest more : List Terminal} {mark : Symbol} (closes : ClosesTerm rest)
    (member : mark ∈ [Symbol.leftBracket, .leftParen, .dot]) : rest ≠ .symbol mark :: more := by
  rintro rfl
  obtain ⟨_, other, head⟩ := closes
  obtain rfl := Terminal.symbol.inj (Option.some.inj head)
  exact other member

theorem spellCall_prefix {qualifier otherQualifier : Option String} {callee otherCallee : String}
    {arguments others rest last : List Terminal}
    (same : spellCall qualifier callee arguments ++ rest =
      spellCall otherQualifier otherCallee others ++ last) :
    qualifier = otherQualifier ∧ callee = otherCallee ∧
      arguments ++ .symbol .rightParen :: rest = others ++ .symbol .rightParen :: last := by
  cases qualifier <;> cases otherQualifier <;>
    simp only [spellCall, List.cons_append, List.append_assoc, List.cons.injEq, Terminal.name.injEq,
      Terminal.symbol.injEq, reduceCtorEq, false_and, and_false, true_and, List.nil_append,
      Option.some.injEq] at same ⊢
  · exact same
  · exact same

/-- A call is no other term. -/
theorem spellCall_ne {qualifier : Option String} {callee : String}
    {arguments rest last : List Terminal} {term : Term}
    (same : spellCall qualifier callee arguments ++ rest = term.yield ++ last)
    (closes : ClosesTerm last) :
    ∃ qualifier callee arguments, term = .call qualifier callee arguments := by
  match term, same with
  | .call qualifier callee arguments, _ => exact ⟨qualifier, callee, arguments, rfl⟩
  | .variable name, same =>
    cases qualifier <;> simp only [spellCall, Term.yield, List.cons_append, List.cons.injEq,
      List.nil_append] at same
    · exact absurd same.2.symm (closes.ne (by decide))
    · exact absurd same.2.symm (closes.ne (by decide))
  | .integer _, same | .string _, same | .constant _, same | .element .., same
  | .parentheses _, same | .unary .., same =>
    cases qualifier <;> simp [spellCall, Term.yield] at same

mutual

theorem Expression.yield_prefix : (expression : Expression) →
    ∀ {other : Expression} {rest last : List Terminal},
    expression.yield ++ rest = other.yield ++ last →
    ClosesExpression rest → ClosesExpression last → expression = other ∧ rest = last
  | .mk first more, .mk otherFirst otherMore, rest, last, same, closes, closesLast => by
    simp only [Expression.yield, List.append_assoc] at same
    obtain ⟨rfl, sameMore⟩ := first.yield_prefix same (more.closesTerm closes)
      (otherMore.closesTerm closesLast)
    obtain ⟨rfl, rfl⟩ := more.yield_prefix sameMore closes closesLast
    exact ⟨rfl, rfl⟩

theorem Operators.yield_prefix : (operators : Operators) →
    ∀ {other : Operators} {rest last : List Terminal},
    operators.yield ++ rest = other.yield ++ last →
    ClosesExpression rest → ClosesExpression last → operators = other ∧ rest = last
  | .done, .done, rest, last, same, _, _ => ⟨rfl, same⟩
  | .done, .more operator _ _, rest, last, same, closes, _ =>
    absurd same (Operators.mark_not_closer operator closes)
  | .more operator _ _, .done, rest, last, same, _, closesLast =>
    absurd same.symm (Operators.mark_not_closer operator closesLast)
  | .more operator operand next, .more otherOperator otherOperand otherNext, rest, last, same,
      closes, closesLast => by
    simp only [Operators.yield, List.cons_append, List.append_assoc, List.cons.injEq,
      Terminal.symbol.injEq] at same
    obtain ⟨mark, same⟩ := same
    obtain rfl := BinaryOperator.mark_injective mark
    obtain ⟨rfl, sameNext⟩ := operand.yield_prefix same (next.closesTerm closes)
      (otherNext.closesTerm closesLast)
    obtain ⟨rfl, rfl⟩ := next.yield_prefix sameNext closes closesLast
    exact ⟨rfl, rfl⟩

theorem Term.yield_prefix : (term : Term) → ∀ {other : Term} {rest last : List Terminal},
    term.yield ++ rest = other.yield ++ last → ClosesTerm rest → ClosesTerm last →
    term = other ∧ rest = last
  | .integer value, other, rest, last, same, _, _ => by
    rcases other with _ | _ | _ | _ | _ | ⟨_ | _⟩ | _ | _ <;> simp [Term.yield, spellCall] at same
    simpa using same
  | .string text, other, rest, last, same, _, _ => by
    rcases other with _ | _ | _ | _ | _ | ⟨_ | _⟩ | _ | _ <;> simp [Term.yield, spellCall] at same
    simpa using same
  | .constant word, other, rest, last, same, _, _ => by
    rcases other with _ | _ | _ | _ | _ | ⟨_ | _⟩ | _ | _ <;> simp [Term.yield, spellCall] at same
    exact ⟨congrArg Term.constant (KeywordConstant.word_injective same.1), same.2⟩
  | .variable name, other, rest, last, same, closes, _ => by
    rcases other with _ | _ | _ | _ | _ | ⟨_ | _⟩ | _ | _ <;> simp [Term.yield, spellCall] at same
    · simpa using same
    · exact absurd same.2 (closes.ne (by decide))
    · exact absurd same.2 (closes.ne (by decide))
    · exact absurd same.2 (closes.ne (by decide))
  | .element name index, other, rest, last, same, closes, closesLast => by
    rcases other with _ | _ | _ | _ | _ | ⟨_ | _⟩ | _ | _ <;> simp [Term.yield, spellCall] at same
    · exact absurd same.2.symm (closesLast.ne (by decide))
    · obtain ⟨rfl, sameIndex⟩ := same
      obtain ⟨rfl, sameLast⟩ := index.yield_prefix sameIndex (closesExpression _ (by decide))
        (closesExpression _ (by decide))
      exact ⟨rfl, by simpa using sameLast⟩
  | .call qualifier callee arguments, other, rest, last, same, closes, closesLast => by
    obtain ⟨qualifier', callee', arguments', rfl⟩ := spellCall_ne same closesLast
    obtain ⟨rfl, rfl, sameArguments⟩ := spellCall_prefix same
    obtain ⟨rfl, rfl⟩ := arguments.yield_prefix sameArguments
    exact ⟨rfl, rfl⟩
  | .parentheses inner, other, rest, last, same, _, _ => by
    rcases other with _ | _ | _ | _ | _ | ⟨_ | _⟩ | _ | ⟨_ | _⟩ <;>
      simp [Term.yield, spellCall, UnaryOperator.mark] at same
    obtain ⟨rfl, sameLast⟩ := inner.yield_prefix same (closesExpression _ (by decide))
      (closesExpression _ (by decide))
    exact ⟨rfl, by simpa using sameLast⟩
  | .unary operator operand, other, rest, last, same, closes, closesLast => by
    rcases other with _ | _ | _ | _ | _ | ⟨_ | _⟩ | _ | _ <;>
      simp [Term.yield, spellCall] at same
    · cases operator <;> simp [UnaryOperator.mark] at same
    · obtain ⟨mark, sameOperand⟩ := same
      obtain rfl := UnaryOperator.mark_injective mark
      obtain ⟨rfl, rfl⟩ := operand.yield_prefix sameOperand closes closesLast
      exact ⟨rfl, rfl⟩

theorem Arguments.yield_prefix : (arguments : Arguments) →
    ∀ {other : Arguments} {rest last : List Terminal},
    arguments.yield ++ .symbol .rightParen :: rest = other.yield ++ .symbol .rightParen :: last →
    arguments = other ∧ rest = last
  | .done, .done, rest, last, same => ⟨rfl, (List.cons_eq_cons.1 same).2⟩
  | .done, .more first _, rest, last, same => by
    obtain ⟨head, more, headed, other, -⟩ := first.head_yield
    rw [Arguments.yield, Arguments.yield, headed] at same
    exact absurd (List.cons_eq_cons.1 same).1.symm other
  | .more first _, .done, rest, last, same => by
    obtain ⟨head, more, headed, other, -⟩ := first.head_yield
    rw [Arguments.yield, Arguments.yield, headed] at same
    exact absurd (List.cons_eq_cons.1 same).1 other
  | .more first next, .more otherFirst otherNext, rest, last, same => by
    simp only [Arguments.yield, List.append_assoc] at same
    obtain ⟨rfl, sameNext⟩ := first.yield_prefix same (closesArguments next)
      (closesArguments otherNext)
    obtain ⟨rfl, rfl⟩ := next.yieldMore_prefix sameNext
    exact ⟨rfl, rfl⟩

theorem Arguments.yieldMore_prefix : (arguments : Arguments) →
    ∀ {other : Arguments} {rest last : List Terminal},
    arguments.yieldMore ++ .symbol .rightParen :: rest =
      other.yieldMore ++ .symbol .rightParen :: last →
    arguments = other ∧ rest = last
  | .done, .done, rest, last, same => ⟨rfl, (List.cons_eq_cons.1 same).2⟩
  | .done, .more first _, rest, last, same => nomatch (List.cons_eq_cons.1 same).1
  | .more first _, .done, rest, last, same => nomatch (List.cons_eq_cons.1 same).1
  | .more first next, .more otherFirst otherNext, rest, last, same => by
    simp only [Arguments.yieldMore, List.cons_append, List.append_assoc, List.cons.injEq,
      true_and] at same
    obtain ⟨rfl, sameNext⟩ := first.yield_prefix same (closesArguments next)
      (closesArguments otherNext)
    obtain ⟨rfl, rfl⟩ := next.yieldMore_prefix sameNext
    exact ⟨rfl, rfl⟩

end

/-- A list of terminals is the yield of one expression at most. -/
theorem Expression.yield_injective {expression other : Expression}
    (same : expression.yield = other.yield) : expression = other :=
  (expression.yield_prefix (congrArg (· ++ [.symbol .semicolon]) same)
    (closesExpression [] (by decide)) (closesExpression [] (by decide))).1

/-- A condition and the statements behind it, where what comes next is left open. -/
theorem spellBranch_append (condition : Expression) (body rest : List Terminal) :
    spellBranch condition.yield body ++ rest =
      .symbol .leftParen :: (condition.yield ++ .symbol .rightParen :: .symbol .leftBrace ::
        (body ++ .symbol .rightBrace :: rest)) := by
  simp [spellBranch]

theorem spellBranch_prefix {condition otherCondition : Expression}
    {body otherBody rest last : List Terminal}
    (same : spellBranch condition.yield body ++ rest =
      spellBranch otherCondition.yield otherBody ++ last) :
    condition = otherCondition ∧
      body ++ .symbol .rightBrace :: rest = otherBody ++ .symbol .rightBrace :: last := by
  rw [spellBranch_append, spellBranch_append, List.cons_eq_cons] at same
  obtain ⟨rfl, more⟩ := condition.yield_prefix same.2 (closesExpression _ (by decide))
    (closesExpression _ (by decide))
  simp only [List.cons.injEq, true_and] at more
  exact ⟨rfl, more⟩

theorem Statements.not_else (statements : Statements) (rest : List Terminal) :
    (statements.yield ++ .symbol .rightBrace :: rest).head? ≠ some (.keyword .kwElse) := by
  cases statements with
  | done => simp [yield]
  | more first others => cases first <;> simp [yield, Statement.yield]

mutual

theorem Statement.yield_prefix : (statement : Statement) →
    ∀ {other : Statement} {rest last : List Terminal},
    statement.yield ++ rest = other.yield ++ last → rest.head? ≠ some (.keyword .kwElse) →
    last.head? ≠ some (.keyword .kwElse) → statement = other ∧ rest = last
  | .setVariable name value, other, rest, last, same, _, _ => by
    cases other <;> simp [Statement.yield] at same
    obtain ⟨rfl, sameValue⟩ := same
    obtain ⟨rfl, sameLast⟩ := value.yield_prefix sameValue (closesExpression _ (by decide))
      (closesExpression _ (by decide))
    exact ⟨rfl, by simpa using sameLast⟩
  | .setElement name index value, other, rest, last, same, _, _ => by
    cases other <;> simp [Statement.yield] at same
    obtain ⟨rfl, sameIndex⟩ := same
    obtain ⟨rfl, sameValue⟩ := index.yield_prefix sameIndex (closesExpression _ (by decide))
      (closesExpression _ (by decide))
    simp only [List.cons.injEq, true_and] at sameValue
    obtain ⟨rfl, sameLast⟩ := value.yield_prefix sameValue (closesExpression _ (by decide))
      (closesExpression _ (by decide))
    exact ⟨rfl, by simpa using sameLast⟩
  | .ifThen condition body, other, rest, last, same, noElse, _ => by
    cases other <;> simp only [Statement.yield, List.cons_append, List.append_assoc,
      List.cons.injEq, Terminal.keyword.injEq, reduceCtorEq, false_and, true_and] at same
    · obtain ⟨rfl, sameBody⟩ := spellBranch_prefix same
      obtain ⟨rfl, rfl⟩ := body.yield_prefix sameBody
      exact ⟨rfl, rfl⟩
    · obtain ⟨rfl, sameBody⟩ := spellBranch_prefix same
      obtain ⟨rfl, rfl⟩ := body.yield_prefix sameBody
      exact absurd rfl noElse
  | .ifElse condition body otherwise, other, rest, last, same, _, noElse => by
    cases other <;> simp only [Statement.yield, List.cons_append, List.append_assoc,
      List.cons.injEq, Terminal.keyword.injEq, reduceCtorEq, false_and, true_and] at same
    · obtain ⟨rfl, sameBody⟩ := spellBranch_prefix same
      obtain ⟨rfl, rfl⟩ := body.yield_prefix sameBody
      exact absurd rfl noElse
    · obtain ⟨rfl, sameBody⟩ := spellBranch_prefix same
      obtain ⟨rfl, sameElse⟩ := body.yield_prefix sameBody
      simp only [List.cons.injEq, true_and] at sameElse
      obtain ⟨rfl, rfl⟩ := otherwise.yield_prefix sameElse
      exact ⟨rfl, rfl⟩
  | .loop condition body, other, rest, last, same, _, _ => by
    cases other <;> simp only [Statement.yield, List.cons_append, List.append_assoc,
      List.cons.injEq, Terminal.keyword.injEq, reduceCtorEq, false_and, true_and] at same
    obtain ⟨rfl, sameBody⟩ := spellBranch_prefix same
    obtain ⟨rfl, rfl⟩ := body.yield_prefix sameBody
    exact ⟨rfl, rfl⟩
  | .doCall qualifier callee arguments, other, rest, last, same, _, _ => by
    cases other <;> simp only [Statement.yield, List.cons_append, List.append_assoc,
      List.cons.injEq, Terminal.keyword.injEq, reduceCtorEq, false_and, true_and] at same
    obtain ⟨rfl, rfl, sameArguments⟩ := spellCall_prefix same
    obtain ⟨rfl, sameLast⟩ := arguments.yield_prefix sameArguments
    exact ⟨rfl, by simpa using sameLast⟩
  | .returnNothing, other, rest, last, same, _, _ => by
    cases other <;> simp [Statement.yield] at same
    · exact ⟨rfl, same⟩
    · rename_i value
      obtain ⟨head, more, headed, -, other⟩ := value.head_yield
      rw [headed] at same
      exact absurd (List.cons_eq_cons.1 same).1.symm other
  | .returnValue value, other, rest, last, same, _, _ => by
    cases other <;> simp [Statement.yield] at same
    · obtain ⟨head, more, headed, -, other⟩ := value.head_yield
      rw [headed] at same
      exact absurd (List.cons_eq_cons.1 same).1 other
    · obtain ⟨rfl, sameLast⟩ := value.yield_prefix same (closesExpression _ (by decide))
        (closesExpression _ (by decide))
      exact ⟨rfl, by simpa using sameLast⟩

theorem Statements.yield_prefix : (statements : Statements) →
    ∀ {other : Statements} {rest last : List Terminal},
    statements.yield ++ .symbol .rightBrace :: rest =
      other.yield ++ .symbol .rightBrace :: last →
    statements = other ∧ rest = last
  | .done, .done, rest, last, same => ⟨rfl, (List.cons_eq_cons.1 same).2⟩
  | .done, .more first _, rest, last, same => by
    cases first <;> exact nomatch (List.cons_eq_cons.1 same).1
  | .more first _, .done, rest, last, same => by
    cases first <;> exact nomatch (List.cons_eq_cons.1 same).1
  | .more first next, .more otherFirst otherNext, rest, last, same => by
    simp only [Statements.yield, List.append_assoc] at same
    obtain ⟨rfl, sameNext⟩ := first.yield_prefix same (next.not_else rest)
      (otherNext.not_else last)
    obtain ⟨rfl, rfl⟩ := next.yield_prefix sameNext
    exact ⟨rfl, rfl⟩

end

/-- A list of parts that are told from one another, up to what is none of them. -/
theorem flatMap_prefix {Part : Type} {yield : Part → List Terminal}
    (own : ∀ part other rest last, yield part ++ rest = yield other ++ last →
      part = other ∧ rest = last)
    {rest last : List Terminal} (ends : ∀ part more, rest ≠ yield part ++ more)
    (endsLast : ∀ part more, last ≠ yield part ++ more) (parts others : List Part)
    (same : parts.flatMap yield ++ rest = others.flatMap yield ++ last) :
    parts = others ∧ rest = last := by
  induction parts generalizing others with
  | nil =>
    cases others with
    | nil => exact ⟨rfl, same⟩
    | cons other others =>
      rw [List.flatMap_cons, List.append_assoc] at same
      exact absurd same (ends other _)
  | cons part parts ih =>
    cases others with
    | nil =>
      rw [List.flatMap_cons, List.append_assoc] at same
      exact absurd same.symm (endsLast part _)
    | cons other others =>
      rw [List.flatMap_cons, List.append_assoc, List.flatMap_cons, List.append_assoc] at same
      obtain ⟨rfl, sameMore⟩ := own part other _ _ same
      obtain ⟨rfl, sameLast⟩ := ih others sameMore
      exact ⟨rfl, sameLast⟩

theorem TypeName.terminal_injective {first second : TypeName}
    (same : first.terminal = second.terminal) : first = second := by
  cases first <;> cases second <;> first | rfl | cases same <;> rfl

theorem TypeName.terminalOrVoid_injective {first second : Option TypeName}
    (same : terminalOrVoid first = terminalOrVoid second) : first = second := by
  rcases first with _ | first <;> rcases second with _ | second
  · rfl
  · cases second <;> cases same
  · cases first <;> cases same
  · exact congrArg some (terminal_injective same)

theorem Names.yield_prefix {names other : Names} {rest last : List Terminal}
    (same : names.yield ++ rest = other.yield ++ last) : names = other ∧ rest = last := by
  obtain ⟨type, first, more⟩ := names
  obtain ⟨otherType, otherFirst, otherMore⟩ := other
  simp only [yield, List.cons_append, List.append_assoc, List.cons.injEq,
    Terminal.name.injEq] at same
  obtain ⟨sameType, rfl, sameMore⟩ := same
  obtain rfl := TypeName.terminal_injective sameType
  obtain ⟨rfl, sameLast⟩ := flatMap_prefix (by simp) (by simp) (by simp) more otherMore sameMore
  exact ⟨rfl, by simpa using sameLast⟩

theorem Parameter.yieldAll_prefix {parameters others : List Parameter}
    {rest last : List Terminal}
    (same : yieldAll parameters ++ .symbol .rightParen :: rest =
      yieldAll others ++ .symbol .rightParen :: last) : parameters = others ∧ rest = last := by
  rcases parameters with _ | ⟨⟨type, name⟩, more⟩ <;>
    rcases others with _ | ⟨⟨otherType, otherName⟩, otherMore⟩
  · exact ⟨rfl, (List.cons_eq_cons.1 same).2⟩
  · cases otherType <;> exact nomatch (List.cons_eq_cons.1 same).1
  · cases type <;> exact nomatch (List.cons_eq_cons.1 same).1
  · simp only [yieldAll, yield, List.cons_append, List.nil_append, List.cons.injEq,
      Terminal.name.injEq] at same
    obtain ⟨sameType, rfl, sameMore⟩ := same
    obtain rfl := TypeName.terminal_injective sameType
    have own (part other : Parameter) (rest last : List Terminal)
        (same : (.symbol .comma :: part.yield) ++ rest = (.symbol .comma :: other.yield) ++ last) :
        part = other ∧ rest = last := by
      obtain ⟨type, name⟩ := part
      obtain ⟨otherType, otherName⟩ := other
      simp only [yield, List.cons_append, List.nil_append, List.cons.injEq, true_and,
        Terminal.name.injEq] at same
      obtain ⟨sameType, rfl, sameLast⟩ := same
      obtain rfl := TypeName.terminal_injective sameType
      exact ⟨rfl, sameLast⟩
    obtain ⟨rfl, sameLast⟩ := flatMap_prefix own (by simp) (by simp) more otherMore sameMore
    exact ⟨rfl, (List.cons_eq_cons.1 sameLast).2⟩

theorem SubroutineKind.word_injective {first second : SubroutineKind}
    (same : first.word = second.word) : first = second := by
  cases first <;> cases second <;> first | rfl | cases same

theorem Statements.no_locals (statements : Statements) (rest : List Terminal) (names : Names)
    (more : List Terminal) :
    statements.yield ++ .symbol .rightBrace :: rest ≠ (.keyword .kwVar :: names.yield) ++ more := by
  cases statements with
  | done => simp [yield]
  | more first others => cases first <;> simp [yield, Statement.yield]

theorem Subroutine.yield_prefix {subroutine other : Subroutine} {rest last : List Terminal}
    (same : subroutine.yield ++ rest = other.yield ++ last) :
    subroutine = other ∧ rest = last := by
  obtain ⟨kind, result, name, parameters, locals, body⟩ := subroutine
  obtain ⟨otherKind, otherResult, otherName, otherParameters, otherLocals, otherBody⟩ := other
  simp only [yield, List.cons_append, List.append_assoc, List.cons.injEq, true_and,
    Terminal.keyword.injEq, Terminal.name.injEq, List.nil_append] at same
  obtain ⟨sameKind, sameResult, rfl, sameMore⟩ := same
  obtain rfl := SubroutineKind.word_injective sameKind
  obtain rfl := TypeName.terminalOrVoid_injective sameResult
  obtain ⟨rfl, sameHeld⟩ := Parameter.yieldAll_prefix sameMore
  have own (names other : Names) (rest last : List Terminal)
      (same : (.keyword .kwVar :: names.yield) ++ rest =
        (.keyword .kwVar :: other.yield) ++ last) : names = other ∧ rest = last :=
    Names.yield_prefix (List.cons_eq_cons.1 same).2
  obtain ⟨rfl, sameBody⟩ := flatMap_prefix own (body.no_locals rest) (otherBody.no_locals last)
    locals otherLocals (List.cons_eq_cons.1 sameHeld).2
  obtain ⟨rfl, rfl⟩ := body.yield_prefix sameBody
  exact ⟨rfl, rfl⟩

theorem ClassVariables.yield_prefix {group other : ClassVariables} {rest last : List Terminal}
    (same : group.yield ++ rest = other.yield ++ last) : group = other ∧ rest = last := by
  obtain ⟨kind, names⟩ := group
  obtain ⟨otherKind, otherNames⟩ := other
  obtain ⟨sameKind, sameNames⟩ := List.cons_eq_cons.1 same
  obtain ⟨rfl, rfl⟩ := Names.yield_prefix sameNames
  cases kind <;> cases otherKind <;> first | exact ⟨rfl, rfl⟩ | cases sameKind

theorem subroutines_no_variables (subroutines : List Subroutine) (group : ClassVariables)
    (more : List Terminal) :
    subroutines.flatMap Subroutine.yield ++ [.symbol .rightBrace] ≠ group.yield ++ more := by
  rcases subroutines with _ | ⟨⟨kind⟩, others⟩
  · simp [ClassVariables.yield]
  · obtain ⟨which, names⟩ := group
    intro same
    cases kind <;> cases which <;> exact nomatch (List.cons_eq_cons.1 same).1

/-- A list of terminals is the yield of one class at most. -/
theorem ClassTree.yield_injective {tree other : ClassTree} (same : tree.yield = other.yield) :
    tree = other := by
  obtain ⟨name, groups, subroutines⟩ := tree
  obtain ⟨otherName, otherGroups, otherSubroutines⟩ := other
  simp only [yield, List.cons.injEq, Terminal.name.injEq, true_and] at same
  obtain ⟨rfl, sameGroups⟩ := same
  obtain ⟨rfl, sameSubroutines⟩ := flatMap_prefix (fun _ _ _ _ => ClassVariables.yield_prefix)
    (subroutines_no_variables subroutines) (subroutines_no_variables otherSubroutines)
    groups otherGroups sameGroups
  obtain ⟨rfl, -⟩ := flatMap_prefix (fun _ _ _ _ => Subroutine.yield_prefix)
    (by simp [Subroutine.yield]) (by simp [Subroutine.yield]) subroutines otherSubroutines
    sameSubroutines
  rfl

end Jack
