import Jack.Proofs.Recognition

namespace Jack

/-- What stands behind a name does not go on with it. -/
def EndsName (rest : List Token) : Prop :=
  ∀ token ∈ rest.head?, token.kind ≠ .symbol .leftBracket ∧ token.kind ≠ .symbol .leftParen ∧
    token.kind ≠ .symbol .dot

/-- No operator between terms stands next. -/
def EndsOperators (rest : List Token) : Prop :=
  ∀ token ∈ rest.head?, ∀ mark, token.kind = .symbol mark → mark.binaryInstruction? = none

/-- A term is all that is read of it before what stands behind. -/
def Term.Ends (rest : List Token) : Term → Prop
  | .variable _ => EndsName rest
  | .unary _ operand => operand.Ends rest
  | .integer _ | .string _ | .constant _ | .element .. | .call .. | .parentheses _ => True

def Operators.Ends (rest : List Token) : Operators → Prop
  | .done => EndsOperators rest
  | .more _ operand next => (next = .done → operand.Ends rest) ∧ next.Ends rest

def Expression.Ends (rest : List Token) : Expression → Prop
  | .mk first more => (more = .done → first.Ends rest) ∧ more.Ends rest

/-- The symbols that stand behind expressions in a class. -/
def Symbol.closers : List Symbol :=
  [.rightParen, .rightBracket, .comma, .semicolon]

theorem Term.ends_of_endsName {rest : List Token} (ends : EndsName rest) :
    (term : Term) → term.Ends rest
  | .variable _ => ends
  | .unary _ operand => operand.ends_of_endsName ends
  | .integer _ | .string _ | .constant _ | .element .. | .call .. | .parentheses _ => trivial

theorem endsName_of_symbol {token : Token} {mark : Symbol} {rest : List Token}
    (is : token.terminal = .symbol mark)
    (other : mark ∉ [Symbol.leftBracket, .leftParen, .dot]) : EndsName (token :: rest) := by
  intro next same
  obtain rfl := Option.mem_some_iff.1 same
  simp_all [Token.kind_of_symbol is]

theorem endsName_of_closer {token : Token} {mark : Symbol} {rest : List Token}
    (is : token.terminal = .symbol mark) (closes : mark ∈ Symbol.closers) :
    EndsName (token :: rest) := by
  refine endsName_of_symbol is ?_
  revert closes
  cases mark <;> simp [Symbol.closers]

theorem Operators.ends_of_closer {token : Token} {mark : Symbol} {rest : List Token}
    (is : token.terminal = .symbol mark) (closes : mark ∈ Symbol.closers)
    (operators : Operators) : operators.Ends (token :: rest) := by
  cases operators with
  | done =>
    show EndsOperators (token :: rest)
    intro next same other kind
    obtain rfl := Option.mem_some_iff.1 same
    rw [Token.kind_of_symbol is] at kind
    cases kind
    revert closes
    cases mark <;> simp [Symbol.closers, Symbol.binaryInstruction?]
  | more _ operand next =>
    exact ⟨fun _ => operand.ends_of_endsName (endsName_of_closer is closes),
      next.ends_of_closer is closes⟩

theorem Expression.ends_of_closer {token : Token} {mark : Symbol} (rest : List Token)
    (is : token.terminal = .symbol mark) (closes : mark ∈ Symbol.closers)
    (expression : Expression) : expression.Ends (token :: rest) := by
  obtain ⟨first, more⟩ := expression
  exact ⟨fun _ => first.ends_of_endsName (endsName_of_closer is closes),
    more.ends_of_closer is closes⟩

theorem BinaryOperator.binaryInstruction?_mark (operator : BinaryOperator) :
    operator.mark.binaryInstruction? = some operator.code := by
  cases operator <;> rfl

/-- A term in front of operators that are spelt ends where it should. -/
theorem Term.ends_append {term : Term} {operators : Operators} {tokens rest : List Token}
    (spelt : tokens.map Token.terminal = operators.yield)
    (ends : operators = .done → term.Ends rest) : term.Ends (tokens ++ rest) := by
  cases operators with
  | done =>
    rw [Operators.yield, List.map_eq_nil_iff] at spelt
    subst spelt
    exact ends rfl
  | more operator operand next =>
    obtain ⟨token, tokens, rfl, is, -⟩ := List.map_eq_cons_iff.1 spelt
    exact term.ends_of_endsName (endsName_of_symbol is (by cases operator <;> decide))

/-- An argument ends where the next one begins or where the call ends. -/
theorem Arguments.ends_append {arguments : Arguments} {tokens : List Token} (rest : List Token)
    (expression : Expression)
    (spelt : tokens.map Token.terminal = arguments.yieldMore ++ [.symbol .rightParen]) :
    expression.Ends (tokens ++ rest) := by
  cases arguments with
  | done =>
    obtain ⟨closing, rfl, is⟩ := List.map_eq_singleton_iff.1 spelt
    exact expression.ends_of_closer _ is (by decide)
  | more first next =>
    rw [yieldMore, List.cons_append] at spelt
    obtain ⟨comma, tokens, rfl, is, -⟩ := List.map_eq_cons_iff.1 spelt
    exact expression.ends_of_closer _ is (by decide)

theorem receivers_le (declared : String → Bool) (qualifier : Option String) :
    receivers declared qualifier ≤ 1 := by
  unfold receivers
  split
  · exact Nat.le_refl 1
  · split <;> omega

theorem exists_name_of_spellCall {qualifier : Option String} {callee : String}
    {arguments : List Terminal} {tokens : List Token}
    (spelt : tokens.map Token.terminal = spellCall qualifier callee arguments) :
    ∃ name more, tokens = name :: more ∧ name.kind = .identifier := by
  cases qualifier <;>
    obtain ⟨name, more, rfl, is, -⟩ := List.map_eq_cons_iff.1 spelt <;>
    exact ⟨name, more, rfl, (Token.kind_of_name is).1⟩

/-- A call is recognised behind its first name, and its code is emitted. -/
theorem call_leads {limit : Nat} {goal : Goal} {qualifier : Option String} {callee : String}
    {arguments : Arguments} {name : Token} {tokens rest : List Token} {numbering : Numbering}
    {generator : Generator}
    (takes : ∀ token : Token, token.kind = .symbol .leftParen ∨ token.kind = .symbol .dot →
      goal.take? numbering token = Goal.takeCall? token name)
    (argumentsLead : ∀ (call : Call) (tokens : List Token),
      tokens.map Token.terminal = arguments.yield ++ [.symbol .rightParen] →
      LeadsTo limit [.arguments call] tokens rest numbering generator
        ((arguments.Valid generator.environment.declared ∧
          receivers generator.environment.declared (Generator.Call.qualifierName call) +
            arguments.length ≤ 65535) ∧
          arguments.depth ≤ limit - generator.depth)
        (arguments.code generator.environment ++
          [.call (generator.environment.calleeClass (Generator.Call.qualifierName call) ++ "." ++
              call.callee.lexeme)
            ((generator.environment.receiver (Generator.Call.qualifierName call)).length +
              arguments.length)]))
    (spelt : (name :: tokens).map Token.terminal = spellCall qualifier callee arguments.yield) :
    LeadsTo limit [goal] tokens rest numbering generator
      ((arguments.Valid generator.environment.declared ∧
        receivers generator.environment.declared qualifier + arguments.length ≤ 65535) ∧
        arguments.depth ≤ limit - generator.depth)
      (generator.environment.call qualifier callee (arguments.code generator.environment)
        arguments.length) := by
  cases qualifier with
  | none =>
    obtain ⟨isName, spelt⟩ := List.cons_eq_cons.1 spelt
    obtain ⟨opening, inner, rfl, isOpening, isInner⟩ := List.map_eq_cons_iff.1 spelt
    have kind := Token.kind_of_symbol isOpening
    have took : goal.take? numbering opening =
        some ⟨[.receiver ⟨none, name⟩], [.arguments ⟨none, name⟩]⟩ := by
      rw [takes opening (.inl kind), Goal.takeCall?, kind]
    refine (Leads.take _ took (numbering.after_symbol kind)
      (generator.emits_receiver limit ⟨none, name⟩) (argumentsLead _ inner isInner)).congr ?_ ?_
    · exact and_iff_right trivial
    · simp [Environment.call, Generator.Call.qualifierName, (Token.kind_of_name isName).2]
  | some qualifier =>
    obtain ⟨isName, spelt⟩ := List.cons_eq_cons.1 spelt
    obtain ⟨dot, inner, rfl, isDot, spelt⟩ := List.map_eq_cons_iff.1 spelt
    obtain ⟨second, inner, rfl, isSecond, spelt⟩ := List.map_eq_cons_iff.1 spelt
    obtain ⟨opening, inner, rfl, isOpening, isInner⟩ := List.map_eq_cons_iff.1 spelt
    have kind := Token.kind_of_symbol isDot
    have took : goal.take? numbering dot = some ⟨[], [.calleeName name]⟩ := by
      rw [takes dot (.inr kind), Goal.takeCall?, kind]
    have tookName : (Goal.calleeName name).take? numbering second =
        some ⟨[], [.openCall ⟨some name, second⟩]⟩ := by
      simp [Goal.take?, (Token.kind_of_name isSecond).1]
    have tookOpening : (Goal.openCall ⟨some name, second⟩).take? numbering opening =
        some ⟨[.receiver ⟨some name, second⟩], [.arguments ⟨some name, second⟩]⟩ := by
      simp [Goal.take?, Token.kind_of_symbol isOpening]
    refine (Leads.take _ took (numbering.after_symbol kind) (.nil limit generator)
      (Leads.take _ tookName (numbering.after_identifier (Token.kind_of_name isSecond).1)
        (.nil limit generator)
        (Leads.take _ tookOpening (numbering.after_symbol (Token.kind_of_symbol isOpening))
          (generator.emits_receiver limit _) (argumentsLead _ inner isInner)))).congr ?_ ?_
    · simp [Generator.Call.qualifierName, (Token.kind_of_name isName).2]
    · simp [Environment.call, Generator.Call.qualifierName, (Token.kind_of_name isName).2,
        (Token.kind_of_name isSecond).2]

mutual

theorem Expression.leads (limit : Nat) : (expression : Expression) →
    ∀ {tokens rest : List Token} (numbering : Numbering) (generator : Generator),
    tokens.map Token.terminal = expression.yield → expression.Ends rest →
    LeadsTo limit Goal.expression tokens rest numbering generator
      (expression.Valid generator.environment.declared ∧
        expression.depth ≤ limit - generator.depth)
      (expression.code generator.environment)
  | .mk first more, tokens, rest, numbering, generator, spelt, ends => by
    obtain ⟨front, back, rfl, isFirst, isMore⟩ := List.map_eq_append_iff.1 spelt
    have firstLeads := (first.leads limit numbering generator.deeper isFirst
      (Term.ends_append isMore ends.1)).nested
    refine (firstLeads.append (more.leads limit numbering generator isMore ends.2)).congr ?_ ?_
    · simp only [Expression.Valid, Expression.depth, Nat.max_le, and_and_and_comm,
        Generator.environment_deeper]
    · simp only [Expression.code, List.map_append, Generator.environment_deeper]

theorem Operators.leads (limit : Nat) : (operators : Operators) →
    ∀ {tokens rest : List Token} (numbering : Numbering) (generator : Generator),
    tokens.map Token.terminal = operators.yield → operators.Ends rest →
    LeadsTo limit [.operators] tokens rest numbering generator
      (operators.Valid generator.environment.declared ∧
        operators.depth ≤ limit - generator.depth)
      (operators.code generator.environment)
  | .done, tokens, rest, numbering, generator, spelt, ends => by
    rw [Operators.yield, List.map_eq_nil_iff] at spelt
    subst spelt
    have stays : ∀ token ∈ rest.head?, Goal.operators.take? numbering token = none := by
      intro token next
      simp only [Goal.take?]
      split
      · rename_i mark kind
        rw [show mark.binaryInstruction? = none from ends token next mark kind, Option.map_none]
      · rfl
    exact (Leads.skip stays (fun _ => rfl) generator).congr
      (by simp [Operators.Valid, Operators.depth]) rfl
  | .more operator operand next, tokens, rest, numbering, generator, spelt, ends => by
    obtain ⟨mark, tokens, rfl, isMark, spelt⟩ := List.map_eq_cons_iff.1 spelt
    obtain ⟨front, back, rfl, isOperand, isNext⟩ := List.map_eq_append_iff.1 spelt
    have kind := Token.kind_of_symbol isMark
    have took : Goal.operators.take? numbering mark =
        some ⟨[], Goal.operand ++ [.perform [.emit operator.code], .operators]⟩ := by
      simp [Goal.take?, kind, operator.binaryInstruction?_mark]
    have operandLeads := (operand.leads limit numbering generator.deeper isOperand
      (Term.ends_append isNext ends.1)).nested
    refine (Leads.take _ took (numbering.after_symbol kind) (.nil limit generator)
      (operandLeads.append ((Leads.emit [operator.code]).after
        (next.leads limit numbering generator isNext ends.2)))).congr ?_ ?_
    · simp only [Operators.Valid, Operators.depth, Nat.max_le, and_and_and_comm, true_and,
        Generator.environment_deeper]
    · simp [Operators.code]

theorem Term.leads (limit : Nat) : (term : Term) →
    ∀ {tokens rest : List Token} (numbering : Numbering) (generator : Generator),
    tokens.map Token.terminal = term.yield → term.Ends rest →
    LeadsTo limit [.term] tokens rest numbering generator
      (term.Valid generator.environment.declared ∧ term.inner ≤ limit - generator.depth)
      (term.code generator.environment)
  | .integer value, tokens, rest, numbering, generator, spelt, _ => by
    obtain ⟨constant, rfl, is⟩ := List.map_eq_singleton_iff.1 spelt
    obtain ⟨kind, same⟩ := Token.kind_of_integer is
    have took : Goal.term.take? numbering constant = some ⟨[.integer constant], []⟩ := by
      simp [Goal.take?, Goal.takeTerm?, kind]
    refine (Leads.take _ took (by simp [Numbering.after, kind])
      (generator.emits_integer limit constant) (Leads.nil limit rest _)).congr ?_ ?_
    · simp [same, Term.Valid, Term.inner]
    · simp [same, Term.code]
  | .string text, tokens, rest, numbering, generator, spelt, _ => by
    obtain ⟨constant, rfl, is⟩ := List.map_eq_singleton_iff.1 spelt
    obtain ⟨kind, same⟩ := Token.kind_of_string is
    have took : Goal.term.take? numbering constant = some ⟨[.string constant], []⟩ := by
      simp [Goal.take?, Goal.takeTerm?, kind]
    refine (Leads.take _ took (by simp [Numbering.after, kind])
      (generator.emits_string limit constant) (Leads.nil limit rest _)).congr ?_ ?_
    · simp [Generator.textOf, same, Term.Valid, Term.inner]
    · simp [Generator.textOf, same, Term.code]
  | .constant word, tokens, rest, numbering, generator, spelt, _ => by
    obtain ⟨token, rfl, is⟩ := List.map_eq_singleton_iff.1 spelt
    have kind := Token.kind_of_keyword is
    have took : Goal.term.take? numbering token = some ⟨word.code.map .emit, []⟩ := by
      cases word <;> simp [Goal.take?, Goal.takeTerm?, kind, KeywordConstant.word,
        KeywordConstant.code]
    have counts : numbering.after token = numbering := by
      cases word <;> simp [Numbering.after, kind, KeywordConstant.word]
    refine (Leads.take _ took counts (generator.emits_emit limit word.code)
      (Leads.nil limit rest _)).congr ?_ ?_
    · simp [Term.Valid, Term.inner]
    · simp [Term.code]
  | .variable name, tokens, rest, numbering, generator, spelt, ends => by
    obtain ⟨token, rfl, is⟩ := List.map_eq_singleton_iff.1 spelt
    obtain ⟨kind, same⟩ := Token.kind_of_name is
    have took : Goal.term.take? numbering token = some ⟨[], [.nameTail token]⟩ := by
      simp [Goal.take?, Goal.takeTerm?, kind]
    have stays : ∀ next ∈ ([] ++ rest).head?, (Goal.nameTail token).take? numbering next = none := by
      intro next head
      obtain ⟨bracket, parenthesis, dot⟩ := ends next head
      simp only [Goal.take?, if_neg bracket, Goal.takeCall?]
    refine (Leads.take _ took (numbering.after_identifier kind) (.nil limit generator)
      (Leads.pass ⟨[.load token], []⟩ stays (fun _ => rfl) (generator.emits_load limit token)
        (Leads.nil limit rest _))).congr ?_ ?_
    · simp [Term.Valid, Term.inner, same]
    · simp [Term.code, same]
  | .element name index, tokens, rest, numbering, generator, spelt, _ => by
    obtain ⟨token, tokens, rfl, is, spelt⟩ := List.map_eq_cons_iff.1 spelt
    obtain ⟨opening, tokens, rfl, isOpening, spelt⟩ := List.map_eq_cons_iff.1 spelt
    obtain ⟨inner, tokens, rfl, isIndex, spelt⟩ := List.map_eq_append_iff.1 spelt
    obtain ⟨closing, rfl, isClosing⟩ := List.map_eq_singleton_iff.1 spelt
    obtain ⟨kind, same⟩ := Token.kind_of_name is
    have kindOpening := Token.kind_of_symbol isOpening
    have took : Goal.term.take? numbering token = some ⟨[], [.nameTail token]⟩ := by
      simp [Goal.take?, Goal.takeTerm?, kind]
    have tookOpening : (Goal.nameTail token).take? numbering opening =
        some ⟨[.load token], Goal.expression ++ [.symbol .rightBracket] ++
          [.perform ([.operate .add, .pop .pointer 1, .push .that 0].map .emit)]⟩ := by
      simp [Goal.take?, kindOpening, Goal.element]
    have indexLeads := LeadsTo.closed (index.leads limit numbering generator isIndex
      (index.ends_of_closer rest isClosing (by decide))) isClosing
    refine (Leads.take _ took (numbering.after_identifier kind) (.nil limit generator)
      (Leads.take _ tookOpening (numbering.after_symbol kindOpening)
        (generator.emits_load limit token)
        (Leads.before indexLeads (Leads.emit _)))).congr ?_ ?_
    · simp [Term.Valid, Term.inner, same, and_assoc]
    · simp [Term.code, same]
  | .call qualifier callee arguments, tokens, rest, numbering, generator, spelt, _ => by
    obtain ⟨token, tokens, rfl, is⟩ := exists_name_of_spellCall spelt
    have took : Goal.term.take? numbering token = some ⟨[], [.nameTail token]⟩ := by
      simp [Goal.take?, Goal.takeTerm?, is]
    have takes : ∀ next : Token, next.kind = .symbol .leftParen ∨ next.kind = .symbol .dot →
        (Goal.nameTail token).take? numbering next = Goal.takeCall? next token := by
      rintro next (kind | kind) <;> simp [Goal.take?, kind]
    refine (Leads.take _ took (numbering.after_identifier is) (.nil limit generator)
      (call_leads takes (fun call _ isInner => arguments.leads limit numbering generator call isInner)
        spelt)).congr ?_ ?_
    · simp [Term.Valid, Term.inner]
    · simp [Term.code]
  | .parentheses inner, tokens, rest, numbering, generator, spelt, _ => by
    obtain ⟨opening, tokens, rfl, isOpening, spelt⟩ := List.map_eq_cons_iff.1 spelt
    obtain ⟨body, tokens, rfl, isBody, spelt⟩ := List.map_eq_append_iff.1 spelt
    obtain ⟨closing, rfl, isClosing⟩ := List.map_eq_singleton_iff.1 spelt
    have kind := Token.kind_of_symbol isOpening
    have took : Goal.term.take? numbering opening =
        some ⟨[], Goal.expression ++ [.symbol .rightParen]⟩ := by
      simp [Goal.take?, Goal.takeTerm?, kind]
    have innerLeads := LeadsTo.closed (inner.leads limit numbering generator isBody
      (inner.ends_of_closer rest isClosing (by decide))) isClosing
    refine (Leads.take _ took (numbering.after_symbol kind) (.nil limit generator)
      innerLeads).congr ?_ ?_
    · simp [Term.Valid, Term.inner]
    · simp [Term.code]
  | .unary operator operand, tokens, rest, numbering, generator, spelt, ends => by
    obtain ⟨mark, tokens, rfl, isMark, isOperand⟩ := List.map_eq_cons_iff.1 spelt
    have kind := Token.kind_of_symbol isMark
    have took : Goal.term.take? numbering mark =
        some ⟨[], Goal.operand ++ [.perform [.emit operator.code]]⟩ := by
      cases operator <;> simp [Goal.take?, Goal.takeTerm?, kind, UnaryOperator.mark,
        UnaryOperator.code]
    have operandLeads := (operand.leads limit numbering generator.deeper isOperand ends).nested
    refine (Leads.take _ took (numbering.after_symbol kind) (.nil limit generator)
      (operandLeads.before (Leads.emit [operator.code]))).congr ?_ ?_
    · simp [Term.Valid, Term.inner]
    · simp [Term.code]

/-- Arguments are recognised up to the end of the call, which is emitted behind them. -/
theorem Arguments.leads (limit : Nat) : (arguments : Arguments) →
    ∀ {tokens rest : List Token} (numbering : Numbering) (generator : Generator) (call : Call),
    tokens.map Token.terminal = arguments.yield ++ [.symbol .rightParen] →
    LeadsTo limit [.arguments call] tokens rest numbering generator
      ((arguments.Valid generator.environment.declared ∧
        receivers generator.environment.declared (Generator.Call.qualifierName call) +
          arguments.length ≤ 65535) ∧
        arguments.depth ≤ limit - generator.depth)
      (arguments.code generator.environment ++
        [.call (generator.environment.calleeClass (Generator.Call.qualifierName call) ++ "." ++
            call.callee.lexeme)
          ((generator.environment.receiver (Generator.Call.qualifierName call)).length +
            arguments.length)])
  | .done, tokens, rest, numbering, generator, call, spelt => by
    obtain ⟨closing, rfl, is⟩ := List.map_eq_singleton_iff.1 spelt
    have kind := Token.kind_of_symbol is
    have took : (Goal.arguments call).take? numbering closing = some ⟨[.call call 0], []⟩ := by
      simp [Goal.take?, kind]
    refine (Leads.take _ took (numbering.after_symbol kind) (generator.emits_call limit call 0)
      (Leads.nil limit rest _)).congr ?_ ?_
    · have few := receivers_le generator.environment.declared (Generator.Call.qualifierName call)
      simp only [Arguments.Valid, Arguments.length, Arguments.depth, true_and, true_iff]
      omega
    · simp [Arguments.code, Arguments.length]
  | .more first next, tokens, rest, numbering, generator, call, spelt => by
    rw [Arguments.yield, List.append_assoc] at spelt
    obtain ⟨front, back, rfl, isFirst, isNext⟩ := List.map_eq_append_iff.1 spelt
    have stays : ∀ token ∈ (front ++ back ++ rest).head?,
        (Goal.arguments call).take? numbering token = none := by
      intro token head
      obtain ⟨terminal, others, headed, other, -⟩ := first.head_yield
      obtain ⟨token', front, rfl, is, -⟩ := List.map_eq_cons_iff.1 (isFirst.trans headed)
      obtain rfl := Option.mem_some_iff.1 head
      refine if_neg fun kind => other ?_
      rw [← is, Token.terminal_of_symbol kind]
    have moves : ∀ line, (Goal.arguments call).otherwise line = .ok ⟨[], Goal.expression ++
        [.perform [.argument call 1], .moreArguments call 1]⟩ := fun _ => rfl
    have firstLeads := first.leads limit numbering generator isFirst
      (next.ends_append rest first isNext)
    refine (Leads.pass _ stays moves (.nil limit generator) (firstLeads.append ((Leads.perform
          (generator.emits_argument limit call 1)).after
        (next.leads_more limit numbering generator call 1 isNext)))).congr ?_ ?_
    · simp only [Arguments.Valid, Arguments.depth, Arguments.length, Nat.max_le, true_and]
      constructor
      · rintro ⟨⟨valid, within⟩, one, ⟨others, few⟩, within'⟩
        exact ⟨⟨⟨valid, others⟩, by omega⟩, within, within'⟩
      · rintro ⟨⟨⟨valid, others⟩, few⟩, within, within'⟩
        exact ⟨⟨valid, within⟩, by omega, ⟨others, by omega⟩, within'⟩
    · simp [Arguments.code, Arguments.length, Nat.add_comm]

/-- The arguments are counted one by one, and those before them are not counted again. -/
theorem Arguments.leads_more (limit : Nat) : (arguments : Arguments) →
    ∀ {tokens rest : List Token} (numbering : Numbering) (generator : Generator) (call : Call)
      (count : Nat),
    tokens.map Token.terminal = arguments.yieldMore ++ [.symbol .rightParen] →
    LeadsTo limit [.moreArguments call count] tokens rest numbering generator
      ((arguments.Valid generator.environment.declared ∧
        (arguments.length = 0 ∨
          receivers generator.environment.declared (Generator.Call.qualifierName call) +
            (count + arguments.length) ≤ 65535)) ∧
        arguments.depth ≤ limit - generator.depth)
      (arguments.code generator.environment ++
        [.call (generator.environment.calleeClass (Generator.Call.qualifierName call) ++ "." ++
            call.callee.lexeme)
          ((generator.environment.receiver (Generator.Call.qualifierName call)).length +
            (count + arguments.length))])
  | .done, tokens, rest, numbering, generator, call, count, spelt => by
    obtain ⟨closing, rfl, is⟩ := List.map_eq_singleton_iff.1 spelt
    have kind := Token.kind_of_symbol is
    have took : (Goal.moreArguments call count).take? numbering closing =
        some ⟨[.call call count], []⟩ := by
      simp [Goal.take?, kind]
    refine (Leads.take _ took (numbering.after_symbol kind) (generator.emits_call limit call count)
      (Leads.nil limit rest _)).congr ?_ ?_
    · simp [Arguments.Valid, Arguments.length, Arguments.depth]
    · simp [Arguments.code, Arguments.length]
  | .more first next, tokens, rest, numbering, generator, call, count, spelt => by
    rw [Arguments.yieldMore, List.cons_append, List.append_assoc] at spelt
    obtain ⟨comma, tokens, rfl, is, spelt⟩ := List.map_eq_cons_iff.1 spelt
    obtain ⟨front, back, rfl, isFirst, isNext⟩ := List.map_eq_append_iff.1 spelt
    have kind := Token.kind_of_symbol is
    have took : (Goal.moreArguments call count).take? numbering comma =
        some ⟨[], Goal.expression ++
          [.perform [.argument call (count + 1)], .moreArguments call (count + 1)]⟩ := by
      simp [Goal.take?, kind]
    have firstLeads := first.leads limit numbering generator isFirst
      (next.ends_append rest first isNext)
    refine (Leads.take _ took (numbering.after_symbol kind) (.nil limit generator)
      (firstLeads.append ((Leads.perform
        (generator.emits_argument limit call (count + 1))).after
        (next.leads_more limit numbering generator call (count + 1) isNext)))).congr ?_ ?_
    · simp only [Arguments.Valid, Arguments.depth, Arguments.length, Nat.max_le, true_and]
      constructor
      · rintro ⟨⟨valid, within⟩, one, ⟨others, few⟩, within'⟩
        exact ⟨⟨⟨valid, others⟩, by omega⟩, within, within'⟩
      · rintro ⟨⟨⟨valid, others⟩, few⟩, within, within'⟩
        exact ⟨⟨valid, within⟩, by omega, ⟨others, by omega⟩, within'⟩
    · have total : count + 1 + next.length = count + (next.length + 1) := by omega
      simp [Arguments.code, Arguments.length, total]

end

end Jack
