import Jack.Proofs.Completeness.Expression

namespace Jack

variable {limit : Nat} {numbering next : Numbering} {generator : Generator}
  {tokens rest : List Token} {opening closing : Token}

theorem BranchPoint.label_eq (generator : Generator) (tag : BranchTag) (number : Nat) :
    BranchPoint.label generator.name ⟨tag, number⟩ =
      generator.environment.label tag.text number :=
  generator.environment.label_eq tag number

/-- A condition in parentheses. -/
theorem LeadsTo.condition {fits : Prop} {code : List Instruction}
    (isOpening : opening.terminal = .symbol .leftParen)
    (isClosing : closing.terminal = .symbol .rightParen)
    (leads : LeadsTo limit Goal.expression tokens (closing :: rest) numbering generator fits code) :
    LeadsTo limit Goal.condition (opening :: (tokens ++ [closing])) rest numbering generator fits
      code :=
  (Leads.cons (Leads.symbol isOpening generator) (leads.closed isClosing)).congr
    (and_iff_right trivial) rfl

/-- Statements in braces are one level deeper. -/
theorem Leads.block {valid : Prop} {levels : Nat} {events : List Event}
    (isOpening : opening.terminal = .symbol .leftBrace)
    (isClosing : closing.terminal = .symbol .rightBrace)
    (leads : Leads limit [.statements] tokens (closing :: rest) ⟨numbering, generator.deeper⟩
      (valid ∧ levels ≤ limit - generator.deeper.depth) events ⟨next, generator.deeper⟩) :
    Leads limit Goal.block (opening :: (tokens ++ [closing])) rest ⟨numbering, generator⟩
      (valid ∧ levels + 1 ≤ limit - generator.depth) events ⟨next, generator⟩ :=
  ((Leads.symbol isOpening generator).cons
    (leads.nested.append (Leads.symbol isClosing generator))).congr (by simp) (by simp)

/-- No statement is followed by an `else` that is not its own. -/
def EndsBranch (rest : List Token) : Prop :=
  ∀ token ∈ rest.head?, token.kind ≠ .keyword .kwElse

def Keyword.ofStatements : List Keyword :=
  [.kwLet, .kwIf, .kwWhile, .kwDo, .kwReturn]

theorem Statement.head_yield (statement : Statement) : ∃ word more,
    statement.yield = .keyword word :: more ∧ word ∈ Keyword.ofStatements := by
  cases statement <;> exact ⟨_, _, rfl, by decide⟩

/-- Statements and the brace behind them begin with no keyword of anything else. -/
theorem Statements.head_append {statements : Statements} {word : Keyword}
    (spelt : tokens.map Token.terminal = statements.yield)
    (isClosing : closing.terminal = .symbol .rightBrace) (other : word ∉ Keyword.ofStatements) :
    ∀ token ∈ (tokens ++ closing :: rest).head?, token.kind ≠ .keyword word := by
  intro token head
  cases statements with
  | done =>
    rw [yield, List.map_eq_nil_iff] at spelt
    subst spelt
    obtain rfl := Option.mem_some_iff.1 head
    simp [Token.kind_of_symbol isClosing]
  | more first next =>
    obtain ⟨first, more, headed, own⟩ := first.head_yield
    rw [yield, headed, List.cons_append] at spelt
    obtain ⟨token', tokens, rfl, is, -⟩ := List.map_eq_cons_iff.1 spelt
    obtain rfl := Option.mem_some_iff.1 head
    rw [Token.kind_of_keyword is]
    rintro ⟨⟩
    exact other own

/-- A statement that begins with a keyword, in front of further statements. -/
theorem Leads.statement {word : Token} {more : List Token} {goals : List Goal} {there : Stage}
    {middle : Numbering} {fits later : Prop} {first events : List Event}
    (took : Goal.statements.take? numbering word = some ⟨[], goals ++ [.statements]⟩)
    (counts : numbering.after word = middle)
    (leads : Leads limit goals tokens (more ++ rest) ⟨middle, generator⟩ fits first
      ⟨next, generator⟩)
    (back : Leads limit [.statements] more rest ⟨next, generator⟩ later events there) :
    Leads limit [.statements] (word :: tokens ++ more) rest ⟨numbering, generator⟩ (fits ∧ later)
      (first ++ events) there :=
  (Leads.take _ took counts (.nil limit generator) (leads.append back)).congr
    (and_iff_right trivial) rfl

/-- What follows the keyword of an assignment to a variable. -/
theorem setVariable_leads {name : String} {value : Expression}
    (spelt : tokens.map Token.terminal =
      .name name :: .symbol .eq :: (value.yield ++ [.symbol .semicolon])) :
    LeadsTo limit [.letName] tokens rest numbering generator
      ((generator.environment.declared name ∧ value.Valid generator.environment.declared) ∧
        value.depth ≤ limit - generator.depth)
      (value.code generator.environment ++ generator.environment.pop name) := by
  obtain ⟨target, tokens, rfl, isTarget, spelt⟩ := List.map_eq_cons_iff.1 spelt
  obtain ⟨mark, tokens, rfl, isMark, spelt⟩ := List.map_eq_cons_iff.1 spelt
  obtain ⟨inner, tokens, rfl, isValue, spelt⟩ := List.map_eq_append_iff.1 spelt
  obtain ⟨closing, rfl, isClosing⟩ := List.map_eq_singleton_iff.1 spelt
  obtain ⟨kind, rfl⟩ := Token.kind_of_name isTarget
  have tookTarget : Goal.letName.take? numbering target =
      some ⟨[.resolve target], [.letTarget target]⟩ := by
    simp [Goal.take?, kind]
  have tookMark : (Goal.letTarget target).take? numbering mark =
      some ⟨[], Goal.expression ++ [.perform [.store target], .symbol .semicolon]⟩ := by
    simp [Goal.take?, Token.kind_of_symbol isMark]
  have valueLeads := value.leads limit numbering generator isValue
    (value.ends_of_closer rest isClosing (by decide))
  refine (Leads.take _ tookTarget (numbering.after_identifier kind)
    (generator.emits_resolve limit target)
    (Leads.take _ tookMark (numbering.after_symbol (Token.kind_of_symbol isMark))
      (.nil limit generator)
      (valueLeads.append ((Leads.perform (generator.emits_store limit target)).after
        (Leads.symbol isClosing generator))))).congr ?_ ?_
  · constructor
    · rintro ⟨declared, -, ⟨valid, within⟩, -⟩
      exact ⟨⟨declared, valid⟩, within⟩
    · rintro ⟨⟨declared, valid⟩, within⟩
      exact ⟨declared, trivial, ⟨valid, within⟩, declared, trivial⟩
  · simp

/-- What follows the keyword of an assignment to an element. -/
theorem setElement_leads {name : String} {index value : Expression}
    (spelt : tokens.map Token.terminal =
      .name name :: .symbol .leftBracket :: (index.yield ++ .symbol .rightBracket ::
        .symbol .eq :: (value.yield ++ [.symbol .semicolon]))) :
    LeadsTo limit [.letName] tokens rest numbering generator
      ((generator.environment.declared name ∧ index.Valid generator.environment.declared ∧
          value.Valid generator.environment.declared) ∧
        max index.depth value.depth ≤ limit - generator.depth)
      (generator.environment.push name ++ index.code generator.environment ++ [.operate .add] ++
        value.code generator.environment ++
        [.pop .temp 0, .pop .pointer 1, .push .temp 0, .pop .that 0]) := by
  obtain ⟨target, tokens, rfl, isTarget, spelt⟩ := List.map_eq_cons_iff.1 spelt
  obtain ⟨opening, tokens, rfl, isOpening, spelt⟩ := List.map_eq_cons_iff.1 spelt
  obtain ⟨place, tokens, rfl, isIndex, spelt⟩ := List.map_eq_append_iff.1 spelt
  obtain ⟨closing, tokens, rfl, isClosing, spelt⟩ := List.map_eq_cons_iff.1 spelt
  obtain ⟨mark, tokens, rfl, isMark, spelt⟩ := List.map_eq_cons_iff.1 spelt
  obtain ⟨inner, tokens, rfl, isValue, spelt⟩ := List.map_eq_append_iff.1 spelt
  obtain ⟨semicolon, rfl, isSemicolon⟩ := List.map_eq_singleton_iff.1 spelt
  obtain ⟨kind, rfl⟩ := Token.kind_of_name isTarget
  have tookTarget : Goal.letName.take? numbering target =
      some ⟨[.resolve target], [.letTarget target]⟩ := by
    simp [Goal.take?, kind]
  have tookOpening : (Goal.letTarget target).take? numbering opening =
      some ⟨[.load target], Goal.expression ++ ([.symbol .rightBracket] ++
        ([.perform ([.operate .add].map .emit)] ++ ([.symbol .eq] ++ (Goal.expression ++
          ([.perform ([.pop .temp 0, .pop .pointer 1, .push .temp 0, .pop .that 0].map .emit)] ++
            [.symbol .semicolon])))))⟩ := by
    simp [Goal.take?, Token.kind_of_symbol isOpening, Goal.elementAssignment]
  have indexLeads := index.leads limit numbering generator isIndex
    (index.ends_of_closer (mark :: (inner ++ [semicolon]) ++ rest) isClosing (by decide))
  have valueLeads := value.leads limit numbering generator isValue
    (value.ends_of_closer rest isSemicolon (by decide))
  refine (Leads.take _ tookTarget (numbering.after_identifier kind)
    (generator.emits_resolve limit target)
    (Leads.take _ tookOpening (numbering.after_symbol (Token.kind_of_symbol isOpening))
      (generator.emits_load limit target)
      (indexLeads.append ((Leads.symbol isClosing generator).append ((Leads.emit _).after
        ((Leads.symbol isMark generator).append (valueLeads.append ((Leads.emit _).after
          (Leads.symbol isSemicolon generator))))))))).congr ?_ ?_
  · rw [Nat.max_le]
    constructor
    · rintro ⟨declared, -, ⟨validIndex, withinIndex⟩, -, -, -, ⟨validValue, withinValue⟩, -⟩
      exact ⟨⟨declared, validIndex, validValue⟩, withinIndex, withinValue⟩
    · rintro ⟨⟨declared, validIndex, validValue⟩, withinIndex, withinValue⟩
      exact ⟨declared, declared, ⟨validIndex, withinIndex⟩, trivial, trivial, trivial,
        ⟨validValue, withinValue⟩, trivial, trivial⟩
  · simp

/-- What follows the keyword of a call. Its result is dropped. -/
theorem doCall_leads {qualifier : Option String} {callee : String} {arguments : Arguments}
    (spelt : tokens.map Token.terminal =
      spellCall qualifier callee arguments.yield ++ [.symbol .semicolon]) :
    LeadsTo limit [.doCall, .symbol .semicolon, .perform [.emit (.pop .temp 0)]] tokens rest
      numbering generator
      ((arguments.Valid generator.environment.declared ∧
          receivers generator.environment.declared qualifier + arguments.length ≤ 65535) ∧
        arguments.depth ≤ limit - generator.depth)
      (generator.environment.call qualifier callee (arguments.code generator.environment)
        arguments.length ++ [.pop .temp 0]) := by
  obtain ⟨call, tokens, rfl, isCall, spelt⟩ := List.map_eq_append_iff.1 spelt
  obtain ⟨closing, rfl, isClosing⟩ := List.map_eq_singleton_iff.1 spelt
  obtain ⟨name, call, rfl, kind⟩ := exists_name_of_spellCall isCall
  have tookName : Goal.doCall.take? numbering name = some ⟨[], [.callTail name]⟩ := by
    simp [Goal.take?, kind]
  have takes (token : Token) (_ : token.kind = .symbol .leftParen ∨ token.kind = .symbol .dot) :
      (Goal.callTail name).take? numbering token = Goal.takeCall? token name :=
    rfl
  refine (Leads.append (Leads.take _ tookName (numbering.after_identifier kind)
    (.nil limit generator) (call_leads takes
      (fun called _ isInner => arguments.leads limit numbering generator called isInner) isCall))
    ((Leads.symbol isClosing generator).before (Leads.emit [.pop .temp 0]))).congr ?_ ?_
  · simp
  · simp

theorem returnNothing_leads
    (spelt : tokens.map Token.terminal = [.symbol .semicolon]) :
    LeadsTo limit [.returnValue] tokens rest numbering generator True
      [.push .constant 0, .ret] := by
  obtain ⟨mark, rfl, isMark⟩ := List.map_eq_singleton_iff.1 spelt
  have took : Goal.returnValue.take? numbering mark =
      some ⟨[.push .constant 0, .ret].map .emit, []⟩ := by
    simp [Goal.take?, Token.kind_of_symbol isMark]
  exact (Leads.take _ took (numbering.after_symbol (Token.kind_of_symbol isMark))
    (generator.emits_emit limit _) (Leads.nil limit rest _)).congr (by simp) (by simp)

theorem returnValue_leads {value : Expression}
    (spelt : tokens.map Token.terminal = value.yield ++ [.symbol .semicolon]) :
    LeadsTo limit [.returnValue] tokens rest numbering generator
      (value.Valid generator.environment.declared ∧ value.depth ≤ limit - generator.depth)
      (value.code generator.environment ++ [.ret]) := by
  obtain ⟨inner, tokens, rfl, isValue, spelt⟩ := List.map_eq_append_iff.1 spelt
  obtain ⟨closing, rfl, isClosing⟩ := List.map_eq_singleton_iff.1 spelt
  have stays : ∀ token ∈ (inner ++ [closing] ++ rest).head?,
      Goal.returnValue.take? numbering token = none := by
    intro token head
    obtain ⟨terminal, others, headed, -, other⟩ := value.head_yield
    obtain ⟨token', inner, rfl, is, -⟩ := List.map_eq_cons_iff.1 (isValue.trans headed)
    obtain rfl := Option.mem_some_iff.1 head
    refine if_neg fun kind => other ?_
    rw [← is, Token.terminal_of_symbol kind]
  have moves : ∀ line, Goal.returnValue.otherwise line =
      .ok ⟨[], Goal.expression ++ [.symbol .semicolon] ++ [.perform ([.ret].map .emit)]⟩ :=
    fun _ => rfl
  have valueLeads := LeadsTo.closed (value.leads limit numbering generator isValue
    (value.ends_of_closer rest isClosing (by decide))) isClosing
  exact (Leads.pass _ stays moves (.nil limit generator)
    (Leads.before valueLeads (Leads.emit _))).congr (by simp) (by simp)

/-- A condition, what is emitted behind it, and statements in braces. -/
theorem branch_leads {condition : Expression} {body : Statements} {actions : List Action}
    {code : List Instruction}
    (spelt : tokens.map Token.terminal = spellBranch condition.yield body.yield)
    (emits : Generator.Emits limit generator actions True code)
    (bodyLeads : ∀ {inner rest : List Token} {closing : Token},
      inner.map Token.terminal = body.yield → closing.terminal = .symbol .rightBrace →
      Leads limit [.statements] inner (closing :: rest) ⟨numbering, generator.deeper⟩
        (body.Valid generator.environment.declared ∧
          body.depth ≤ limit - generator.deeper.depth)
        ((body.code generator.environment numbering).map .instruction)
        ⟨body.numbered numbering, generator.deeper⟩) :
    Leads limit (Goal.condition ++ ([.perform actions] ++ Goal.block)) tokens rest
      ⟨numbering, generator⟩
      ((condition.Valid generator.environment.declared ∧
          body.Valid generator.environment.declared) ∧
        max condition.depth (body.depth + 1) ≤ limit - generator.depth)
      ((condition.code generator.environment ++ code ++
        body.code generator.environment numbering).map .instruction)
      ⟨body.numbered numbering, generator⟩ := by
  obtain ⟨opening, tokens, rfl, isOpening, spelt⟩ := List.map_eq_cons_iff.1 spelt
  obtain ⟨asked, tokens, rfl, isAsked, spelt⟩ := List.map_eq_append_iff.1 spelt
  obtain ⟨closing, tokens, rfl, isClosing, spelt⟩ := List.map_eq_cons_iff.1 spelt
  obtain ⟨brace, tokens, rfl, isBrace, spelt⟩ := List.map_eq_cons_iff.1 spelt
  obtain ⟨inner, tokens, rfl, isInner, spelt⟩ := List.map_eq_append_iff.1 spelt
  obtain ⟨last, rfl, isLast⟩ := List.map_eq_singleton_iff.1 spelt
  have conditionLeads := LeadsTo.condition isOpening isClosing
    (condition.leads limit numbering generator isAsked
      (condition.ends_of_closer (brace :: (inner ++ [last]) ++ rest) isClosing (by decide)))
  have whole : opening :: (asked ++ closing :: brace :: (inner ++ [last])) =
      opening :: (asked ++ [closing]) ++ brace :: (inner ++ [last]) := by simp
  rw [whole]
  refine (Leads.append conditionLeads ((Leads.perform emits).after
    (Leads.block isBrace isLast (bodyLeads isInner isLast)))).congr ?_ ?_
  · rw [Nat.max_le, true_and, and_and_and_comm]
  · simp only [List.map_append, List.append_assoc]

theorem Generator.emits_ifTrue (limit : Nat) (generator : Generator) (number : Nat) :
    Emits limit generator
      [.jumpIf ⟨.ifTrue, number⟩, .jump ⟨.ifFalse, number⟩, .mark ⟨.ifTrue, number⟩] True
      [.ifGoto (generator.environment.label "IF_TRUE" number),
        .goto (generator.environment.label "IF_FALSE" number),
        .label (generator.environment.label "IF_TRUE" number)] :=
  ((generator.emits_jumpIf limit ⟨.ifTrue, number⟩).append
    ((generator.emits_jump limit ⟨.ifFalse, number⟩).append
      (generator.emits_mark limit ⟨.ifTrue, number⟩))).congr (by simp)
    (by simp [BranchPoint.label_eq, BranchTag.text])

theorem Generator.emits_ifFalse (limit : Nat) (generator : Generator) (number : Nat) :
    Emits limit generator [.jump ⟨.ifEnd, number⟩, .mark ⟨.ifFalse, number⟩] True
      [.goto (generator.environment.label "IF_END" number),
        .label (generator.environment.label "IF_FALSE" number)] :=
  ((generator.emits_jump limit ⟨.ifEnd, number⟩).append
    (generator.emits_mark limit ⟨.ifFalse, number⟩)).congr (by simp)
    (by simp [BranchPoint.label_eq, BranchTag.text])

theorem Generator.emits_whileTest (limit : Nat) (generator : Generator) (number : Nat) :
    Emits limit generator [.emit (.operate .not), .jumpIf ⟨.whileEnd, number⟩] True
      [.operate .not, .ifGoto (generator.environment.label "WHILE_END" number)] :=
  ((generator.emits_emit limit [.operate .not]).append
    (generator.emits_jumpIf limit ⟨.whileEnd, number⟩)).congr (by simp)
    (by simp [BranchPoint.label_eq, BranchTag.text])

theorem Generator.emits_whileEnd (limit : Nat) (generator : Generator) (number : Nat) :
    Emits limit generator [.jump ⟨.whileStart, number⟩, .mark ⟨.whileEnd, number⟩] True
      [.goto (generator.environment.label "WHILE_EXP" number),
        .label (generator.environment.label "WHILE_END" number)] :=
  ((generator.emits_jump limit ⟨.whileStart, number⟩).append
    (generator.emits_mark limit ⟨.whileEnd, number⟩)).congr (by simp)
    (by simp [BranchPoint.label_eq, BranchTag.text])

theorem Generator.emits_ifEnd (limit : Nat) (generator : Generator) (number : Nat) :
    Emits limit generator [.mark ⟨.ifEnd, number⟩] True
      [.label (generator.environment.label "IF_END" number)] :=
  (generator.emits_mark limit ⟨.ifEnd, number⟩).congr .rfl
    (by rw [BranchPoint.label_eq]; rfl)

mutual

/-- A statement in front of others is recognised, and then they are. -/
theorem Statement.leads (limit : Nat) : (statement : Statement) →
    ∀ {tokens more rest : List Token} {there : Stage} {later : Prop} {events : List Event}
      (numbering : Numbering) (generator : Generator),
    tokens.map Token.terminal = statement.yield → EndsBranch (more ++ rest) →
    Leads limit [.statements] more rest ⟨statement.numbered numbering, generator⟩ later events
      there →
    Leads limit [.statements] (tokens ++ more) rest ⟨numbering, generator⟩
      ((statement.Valid generator.environment.declared ∧
        statement.depth ≤ limit - generator.depth) ∧ later)
      ((statement.code generator.environment numbering).map .instruction ++ events) there
  | .setVariable name value, tokens, more, rest, there, later, events, numbering, generator,
      spelt, _, back => by
    obtain ⟨word, tokens, rfl, isWord, spelt⟩ := List.map_eq_cons_iff.1 spelt
    have took : Goal.statements.take? numbering word = some ⟨[], [.letName] ++ [.statements]⟩ := by
      simp [Goal.take?, Goal.takeStatement?, Token.kind_of_keyword isWord]
    exact Leads.statement took (numbering.after_keyword isWord (by decide))
      (setVariable_leads spelt) back
  | .setElement name index value, tokens, more, rest, there, later, events, numbering, generator,
      spelt, _, back => by
    obtain ⟨word, tokens, rfl, isWord, spelt⟩ := List.map_eq_cons_iff.1 spelt
    have took : Goal.statements.take? numbering word = some ⟨[], [.letName] ++ [.statements]⟩ := by
      simp [Goal.take?, Goal.takeStatement?, Token.kind_of_keyword isWord]
    exact Leads.statement took (numbering.after_keyword isWord (by decide))
      (setElement_leads spelt) back
  | .doCall qualifier callee arguments, tokens, more, rest, there, later, events, numbering,
      generator, spelt, _, back => by
    obtain ⟨word, tokens, rfl, isWord, spelt⟩ := List.map_eq_cons_iff.1 spelt
    have took : Goal.statements.take? numbering word = some ⟨[],
        [.doCall, .symbol .semicolon, .perform [.emit (.pop .temp 0)]] ++ [.statements]⟩ := by
      simp [Goal.take?, Goal.takeStatement?, Token.kind_of_keyword isWord]
    exact Leads.statement took (numbering.after_keyword isWord (by decide))
      (doCall_leads spelt) back
  | .returnNothing, tokens, more, rest, there, later, events, numbering, generator, spelt, _,
      back => by
    obtain ⟨word, tokens, rfl, isWord, spelt⟩ := List.map_eq_cons_iff.1 spelt
    have took : Goal.statements.take? numbering word =
        some ⟨[], [.returnValue] ++ [.statements]⟩ := by
      simp [Goal.take?, Goal.takeStatement?, Token.kind_of_keyword isWord]
    have leads := Leads.statement took (numbering.after_keyword isWord (by decide))
      (returnNothing_leads spelt) back
    exact leads.congr (by simp [Statement.Valid, Statement.depth]) rfl
  | .returnValue value, tokens, more, rest, there, later, events, numbering, generator, spelt, _,
      back => by
    obtain ⟨word, tokens, rfl, isWord, spelt⟩ := List.map_eq_cons_iff.1 spelt
    have took : Goal.statements.take? numbering word =
        some ⟨[], [.returnValue] ++ [.statements]⟩ := by
      simp [Goal.take?, Goal.takeStatement?, Token.kind_of_keyword isWord]
    exact Leads.statement took (numbering.after_keyword isWord (by decide))
      (returnValue_leads spelt) back
  | .ifThen condition body, tokens, more, rest, there, later, events, numbering, generator, spelt,
      ends, back => by
    obtain ⟨word, tokens, rfl, isWord, spelt⟩ := List.map_eq_cons_iff.1 spelt
    have kind := Token.kind_of_keyword isWord
    have took : Goal.statements.take? numbering word = some ⟨[],
        Goal.condition ++ ([.perform [.jumpIf ⟨.ifTrue, numbering.ifs⟩,
            .jump ⟨.ifFalse, numbering.ifs⟩, .mark ⟨.ifTrue, numbering.ifs⟩]] ++ Goal.block) ++
          ([.perform [.jump ⟨.ifEnd, numbering.ifs⟩, .mark ⟨.ifFalse, numbering.ifs⟩]] ++
            ([.elseBranch] ++ [.perform [.mark ⟨.ifEnd, numbering.ifs⟩]])) ++ [.statements]⟩ := by
      simp [Goal.take?, Goal.takeStatement?, kind, Goal.ifStatement]
    have elseLeads (number : Numbering) : Leads limit [.elseBranch] [] (more ++ rest)
        ⟨number, generator⟩ True [] ⟨number, generator⟩ :=
      Leads.skip (fun token head => by rw [Goal.take?, if_neg (ends token head)]) (fun _ => rfl)
        generator
    have counts : numbering.after word = numbering.choice := by
      simp [Numbering.after, Numbering.choice, kind]
    refine (Leads.statement took counts
      (Leads.before (branch_leads spelt (generator.emits_ifTrue limit numbering.ifs)
          fun isInner isLast => body.leads limit numbering.choice
            generator.deeper isInner isLast)
        ((Leads.perform (generator.emits_ifFalse limit numbering.ifs)).after
          ((elseLeads _).before
            (Leads.perform (generator.emits_ifEnd limit numbering.ifs))))) back).congr ?_ ?_
    · simp [Statement.Valid, Statement.depth]
    · simp [Statement.code, Environment.choice]
  | .ifElse condition body otherwise, tokens, more, rest, there, later, events, numbering,
      generator, spelt, _, back => by
    obtain ⟨word, tokens, rfl, isWord, spelt⟩ := List.map_eq_cons_iff.1 spelt
    obtain ⟨front, tokens, rfl, isFront, spelt⟩ := List.map_eq_append_iff.1 spelt
    obtain ⟨elseWord, tokens, rfl, isElse, spelt⟩ := List.map_eq_cons_iff.1 spelt
    obtain ⟨brace, tokens, rfl, isBrace, spelt⟩ := List.map_eq_cons_iff.1 spelt
    obtain ⟨inner, tokens, rfl, isInner, spelt⟩ := List.map_eq_append_iff.1 spelt
    obtain ⟨last, rfl, isLast⟩ := List.map_eq_singleton_iff.1 spelt
    have kind := Token.kind_of_keyword isWord
    have took : Goal.statements.take? numbering word = some ⟨[],
        Goal.condition ++ ([.perform [.jumpIf ⟨.ifTrue, numbering.ifs⟩,
            .jump ⟨.ifFalse, numbering.ifs⟩, .mark ⟨.ifTrue, numbering.ifs⟩]] ++ Goal.block) ++
          ([.perform [.jump ⟨.ifEnd, numbering.ifs⟩, .mark ⟨.ifFalse, numbering.ifs⟩]] ++
            ([.elseBranch] ++ [.perform [.mark ⟨.ifEnd, numbering.ifs⟩]])) ++ [.statements]⟩ := by
      simp [Goal.take?, Goal.takeStatement?, kind, Goal.ifStatement]
    have counts : numbering.after word = numbering.choice := by
      simp [Numbering.after, Numbering.choice, kind]
    have tookElse (number : Numbering) :
        Goal.elseBranch.take? number elseWord = some ⟨[], Goal.block⟩ := by
      simp [Goal.take?, Token.kind_of_keyword isElse]
    refine (Leads.statement took counts
      (Leads.append (branch_leads isFront (generator.emits_ifTrue limit numbering.ifs)
          fun isInner isLast => body.leads limit numbering.choice
            generator.deeper isInner isLast)
        ((Leads.perform (generator.emits_ifFalse limit numbering.ifs)).after
          ((Leads.take _ (tookElse _) (Numbering.after_keyword _ isElse (by decide))
            (.nil limit generator)
            (Leads.block isBrace isLast
              (otherwise.leads limit _ generator.deeper isInner isLast))).before
            (Leads.perform (generator.emits_ifEnd limit numbering.ifs))))) back).congr ?_ ?_
    · simp only [Statement.Valid, Statement.depth, Nat.max_le, true_and, and_true]
      constructor
      · rintro ⟨⟨⟨⟨valid, validBody⟩, within, withinBody⟩, validElse, withinElse⟩, holds⟩
        exact ⟨⟨⟨valid, validBody, validElse⟩, within, withinBody, withinElse⟩, holds⟩
      · rintro ⟨⟨⟨valid, validBody, validElse⟩, within, withinBody, withinElse⟩, holds⟩
        exact ⟨⟨⟨⟨valid, validBody⟩, within, withinBody⟩, validElse, withinElse⟩, holds⟩
    · simp [Statement.code, Environment.choice]
  | .loop condition body, tokens, more, rest, there, later, events, numbering, generator, spelt, _,
      back => by
    obtain ⟨word, tokens, rfl, isWord, spelt⟩ := List.map_eq_cons_iff.1 spelt
    have kind := Token.kind_of_keyword isWord
    have took : Goal.statements.take? numbering word =
        some ⟨[.mark ⟨.whileStart, numbering.whiles⟩],
          Goal.condition ++ ([.perform [.emit (.operate .not),
              .jumpIf ⟨.whileEnd, numbering.whiles⟩]] ++ Goal.block) ++
            [.perform [.jump ⟨.whileStart, numbering.whiles⟩,
              .mark ⟨.whileEnd, numbering.whiles⟩]] ++ [.statements]⟩ := by
      simp [Goal.take?, Goal.takeStatement?, kind, Goal.whileStatement]
    have counts : numbering.after word = numbering.loop := by
      simp [Numbering.after, Numbering.loop, kind]
    refine (Leads.take _ took counts (generator.emits_mark limit ⟨.whileStart, numbering.whiles⟩)
      (Leads.append (Leads.before (branch_leads spelt
          (generator.emits_whileTest limit numbering.whiles)
          fun isInner isLast => body.leads limit numbering.loop
            generator.deeper isInner isLast)
        (Leads.perform (generator.emits_whileEnd limit numbering.whiles))) back)).congr ?_ ?_
    · simp [Statement.Valid, Statement.depth]
    · simp [Statement.code, Environment.loop, BranchPoint.label_eq, BranchTag.text]

theorem Statements.leads (limit : Nat) : (statements : Statements) →
    ∀ {tokens rest : List Token} {closing : Token} (numbering : Numbering)
      (generator : Generator),
    tokens.map Token.terminal = statements.yield → closing.terminal = .symbol .rightBrace →
    Leads limit [.statements] tokens (closing :: rest) ⟨numbering, generator⟩
      (statements.Valid generator.environment.declared ∧
        statements.depth ≤ limit - generator.depth)
      ((statements.code generator.environment numbering).map .instruction)
      ⟨statements.numbered numbering, generator⟩
  | .done, tokens, rest, closing, numbering, generator, spelt, isClosing => by
    rw [Statements.yield, List.map_eq_nil_iff] at spelt
    subst spelt
    have stays : ∀ token ∈ (closing :: rest).head?,
        Goal.statements.take? numbering token = none := by
      intro token head
      obtain rfl := Option.mem_some_iff.1 head
      simp [Goal.take?, Goal.takeStatement?, Token.kind_of_symbol isClosing]
    exact (Leads.skip stays (fun _ => rfl) generator).congr
      (by simp [Statements.Valid, Statements.depth]) rfl
  | .more first others, tokens, rest, closing, numbering, generator, spelt, isClosing => by
    obtain ⟨front, back, rfl, isFirst, isOthers⟩ := List.map_eq_append_iff.1 spelt
    refine (first.leads limit numbering generator isFirst
      (Statements.head_append isOthers isClosing (by decide))
      (others.leads limit (first.numbered numbering) generator isOthers isClosing)).congr ?_ ?_
    · simp only [Statements.Valid, Statements.depth, Nat.max_le, and_and_and_comm]
    · simp only [Statements.code, List.map_append]

end

end Jack
