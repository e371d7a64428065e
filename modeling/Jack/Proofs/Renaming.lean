import Jack.Proofs.References
import Mathlib.Data.List.Forall2

namespace Jack

mutual

/-- The tree with changed names in the places of variables. -/
def Expression.renamed (change : String → String) : Expression → Expression
  | .mk first more => .mk (first.renamed change) (more.renamed change)

def Operators.renamed (change : String → String) : Operators → Operators
  | .done => .done
  | .more operator operand rest => .more operator (operand.renamed change) (rest.renamed change)

def Term.renamed (change : String → String) : Term → Term
  | .integer value => .integer value
  | .string text => .string text
  | .constant word => .constant word
  | .variable name => .variable (change name)
  | .element name index => .element (change name) (index.renamed change)
  | .call qualifier callee arguments =>
    .call (qualifier.map change) callee (arguments.renamed change)
  | .parentheses inner => .parentheses (inner.renamed change)
  | .unary operator operand => .unary operator (operand.renamed change)

def Arguments.renamed (change : String → String) : Arguments → Arguments
  | .done => .done
  | .more first rest => .more (first.renamed change) (rest.renamed change)

end

mutual

def Statement.renamed (change : String → String) : Statement → Statement
  | .setVariable name value => .setVariable (change name) (value.renamed change)
  | .setElement name index value =>
    .setElement (change name) (index.renamed change) (value.renamed change)
  | .ifThen condition body => .ifThen (condition.renamed change) (body.renamed change)
  | .ifElse condition body otherwise =>
    .ifElse (condition.renamed change) (body.renamed change) (otherwise.renamed change)
  | .loop condition body => .loop (condition.renamed change) (body.renamed change)
  | .doCall qualifier callee arguments =>
    .doCall (qualifier.map change) callee (arguments.renamed change)
  | .returnNothing => .returnNothing
  | .returnValue value => .returnValue (value.renamed change)

def Statements.renamed (change : String → String) : Statements → Statements
  | .done => .done
  | .more first rest => .more (first.renamed change) (rest.renamed change)

end

mutual

theorem Expression.renamed_id : (expression : Expression) → expression.renamed id = expression
  | .mk first more => by rw [Expression.renamed, first.renamed_id, more.renamed_id]

theorem Operators.renamed_id : (operators : Operators) → operators.renamed id = operators
  | .done => rfl
  | .more operator operand rest => by
    rw [Operators.renamed, operand.renamed_id, rest.renamed_id]

theorem Term.renamed_id : (term : Term) → term.renamed id = term
  | .integer _ | .string _ | .constant _ | .variable _ => rfl
  | .element name index => by rw [Term.renamed, index.renamed_id, id]
  | .call qualifier callee arguments => by
    rw [Term.renamed, arguments.renamed_id, Option.map_id, id]
  | .parentheses inner => by rw [Term.renamed, inner.renamed_id]
  | .unary operator operand => by rw [Term.renamed, operand.renamed_id]

theorem Arguments.renamed_id : (arguments : Arguments) → arguments.renamed id = arguments
  | .done => rfl
  | .more first rest => by rw [Arguments.renamed, first.renamed_id, rest.renamed_id]

end

mutual

theorem Statement.renamed_id : (statement : Statement) → statement.renamed id = statement
  | .setVariable name value => by rw [Statement.renamed, value.renamed_id, id]
  | .setElement name index value => by
    rw [Statement.renamed, index.renamed_id, value.renamed_id, id]
  | .ifThen condition body => by rw [Statement.renamed, condition.renamed_id, body.renamed_id]
  | .ifElse condition body otherwise => by
    rw [Statement.renamed, condition.renamed_id, body.renamed_id, otherwise.renamed_id]
  | .loop condition body => by rw [Statement.renamed, condition.renamed_id, body.renamed_id]
  | .doCall qualifier callee arguments => by
    rw [Statement.renamed, arguments.renamed_id, Option.map_id, id]
  | .returnNothing => rfl
  | .returnValue value => by rw [Statement.renamed, value.renamed_id]

theorem Statements.renamed_id : (statements : Statements) → statements.renamed id = statements
  | .done => rfl
  | .more first rest => by rw [Statements.renamed, first.renamed_id, rest.renamed_id]

end

theorem mem_spellCall {qualifier : Option String} (callee : String) {name : String}
    {names : List String} {arguments : List Terminal}
    (spelt : ∀ name ∈ names, .name name ∈ arguments)
    (member : name ∈ qualifier.toList ++ names) :
    .name name ∈ spellCall qualifier callee arguments := by
  rcases List.mem_append.1 member with isQualifier | isArgument
  · cases qualifier with
    | none => cases isQualifier
    | some qualifier =>
      obtain rfl := List.mem_singleton.1 isQualifier
      exact List.mem_cons_self
  · have inside := spelt name isArgument
    cases qualifier <;> simp [spellCall, inside]

mutual

theorem Expression.mem_yield : (expression : Expression) → ∀ name ∈ expression.references,
    .name name ∈ expression.yield
  | .mk first more, name, member => by
    rcases List.mem_append.1 member with isFirst | isMore
    · exact List.mem_append_left _ (first.mem_yield name isFirst)
    · exact List.mem_append_right _ (more.mem_yield name isMore)

theorem Operators.mem_yield : (operators : Operators) → ∀ name ∈ operators.references,
    .name name ∈ operators.yield
  | .more _ operand rest, name, member => by
    rcases List.mem_append.1 member with isOperand | isRest
    · exact List.mem_cons_of_mem _ (List.mem_append_left _ (operand.mem_yield name isOperand))
    · exact List.mem_cons_of_mem _ (List.mem_append_right _ (rest.mem_yield name isRest))

theorem Term.mem_yield : (term : Term) → ∀ name ∈ term.references, .name name ∈ term.yield
  | .variable _, name, member => by
    obtain rfl := List.mem_singleton.1 member
    exact List.mem_singleton_self _
  | .element base index, name, member => by
    rcases List.mem_cons.1 member with rfl | isIndex
    · exact List.mem_cons_self
    · have inside := index.mem_yield name isIndex
      simp [Term.yield, inside]
  | .call _ callee arguments, _, member => mem_spellCall callee arguments.mem_yield member
  | .parentheses inner, name, member => by
    have inside := inner.mem_yield name member
    simp [Term.yield, inside]
  | .unary _ operand, name, member => List.mem_cons_of_mem _ (operand.mem_yield name member)

theorem Arguments.mem_yield : (arguments : Arguments) → ∀ name ∈ arguments.references,
    .name name ∈ arguments.yield
  | .more first rest, name, member => by
    rcases List.mem_append.1 member with isFirst | isRest
    · exact List.mem_append_left _ (first.mem_yield name isFirst)
    · exact List.mem_append_right _ (rest.mem_yieldMore name isRest)

theorem Arguments.mem_yieldMore : (arguments : Arguments) → ∀ name ∈ arguments.references,
    .name name ∈ arguments.yieldMore
  | .more first rest, name, member => by
    rcases List.mem_append.1 member with isFirst | isRest
    · exact List.mem_cons_of_mem _ (List.mem_append_left _ (first.mem_yield name isFirst))
    · exact List.mem_cons_of_mem _ (List.mem_append_right _ (rest.mem_yieldMore name isRest))

end

mutual

theorem Statement.mem_yield : (statement : Statement) → ∀ name ∈ statement.references,
    .name name ∈ statement.yield
  | .setVariable target value, name, member => by
    rcases List.mem_append.1 member with isValue | isTarget
    · have inside := value.mem_yield name isValue
      simp [Statement.yield, inside]
    · obtain rfl := List.mem_singleton.1 isTarget
      simp [Statement.yield]
  | .setElement base index value, name, member => by
    rcases List.mem_cons.1 member with rfl | isInside
    · simp [Statement.yield]
    rcases List.mem_append.1 isInside with isIndex | isValue
    · have inside := index.mem_yield name isIndex
      simp [Statement.yield, inside]
    · have inside := value.mem_yield name isValue
      simp [Statement.yield, inside]
  | .ifThen condition body, name, member | .loop condition body, name, member => by
    rcases List.mem_append.1 member with isCondition | isBody
    · have inside := condition.mem_yield name isCondition
      simp [Statement.yield, spellBranch, inside]
    · have inside := body.mem_yield name isBody
      simp [Statement.yield, spellBranch, inside]
  | .ifElse condition body otherwise, name, member => by
    rcases List.mem_append.1 member with isFirst | isOtherwise
    · rcases List.mem_append.1 isFirst with isCondition | isBody
      · have inside := condition.mem_yield name isCondition
        simp [Statement.yield, spellBranch, inside]
      · have inside := body.mem_yield name isBody
        simp [Statement.yield, spellBranch, inside]
    · have inside := otherwise.mem_yield name isOtherwise
      simp [Statement.yield, inside]
  | .doCall qualifier callee arguments, name, member => by
    have inside := mem_spellCall callee arguments.mem_yield member
    simp [Statement.yield, inside]
  | .returnValue value, name, member => by
    have inside := value.mem_yield name member
    simp [Statement.yield, inside]

theorem Statements.mem_yield : (statements : Statements) → ∀ name ∈ statements.references,
    .name name ∈ statements.yield
  | .more first rest, name, member => by
    rcases List.mem_append.1 member with isFirst | isRest
    · exact List.mem_append_left _ (first.mem_yield name isFirst)
    · exact List.mem_append_right _ (rest.mem_yield name isRest)

end

/-- A terminal in the place of another one, which is a name if they are different. -/
def Terminal.Renames (change : String → String) (old new : Terminal) : Prop :=
  new = old ∨ ∃ name, old = .name name ∧ new = .name (change name)

/-- Terminals that differ in changed names. -/
abbrev Respells (change : String → String) : List Terminal → List Terminal → Prop :=
  List.Forall₂ (Terminal.Renames change)

namespace Respells

variable {change : String → String} {first last more others : List Terminal}

theorem refl (change : String → String) (terminals : List Terminal) :
    Respells change terminals terminals :=
  List.forall₂_same.2 fun _ _ => .inl rfl

theorem append (front : Respells change first more) (back : Respells change last others) :
    Respells change (first ++ last) (more ++ others) :=
  List.rel_append front back

theorem same (terminal : Terminal) (behind : Respells change last others) :
    Respells change (terminal :: last) (terminal :: others) :=
  .cons (.inl rfl) behind

theorem name (name : String) (behind : Respells change last others) :
    Respells change (.name name :: last) (.name (change name) :: others) :=
  .cons (.inr ⟨name, rfl, rfl⟩) behind

/-- In front of terminals that do not change. -/
theorem before (front : Respells change first more) (terminals : List Terminal) :
    Respells change (first ++ terminals) (more ++ terminals) :=
  front.append (refl change terminals)

theorem spellCall (qualifier : Option String) (callee : String)
    (arguments : Respells change first more) :
    Respells change (spellCall qualifier callee first)
      (spellCall (qualifier.map change) callee more) := by
  have list := arguments.before [.symbol .rightParen]
  cases qualifier with
  | none => exact same _ (same _ list)
  | some qualifier => exact name qualifier (same _ (same _ (same _ list)))

theorem spellBranch (condition : Respells change first more) (body : Respells change last others) :
    Respells change (spellBranch first last) (spellBranch more others) :=
  same _ (condition.append (same _ (same _ (body.before [.symbol .rightBrace]))))

end Respells

section

variable (change : String → String)

mutual

theorem Expression.respells : (expression : Expression) →
    Respells change expression.yield (expression.renamed change).yield
  | .mk first more => first.respells.append more.respells

theorem Operators.respells : (operators : Operators) →
    Respells change operators.yield (operators.renamed change).yield
  | .done => .refl change []
  | .more _ operand rest => .same _ (operand.respells.append rest.respells)

theorem Term.respells : (term : Term) → Respells change term.yield (term.renamed change).yield
  | .integer _ | .string _ | .constant _ => .refl change _
  | .variable name => .name name (.refl change [])
  | .element name index => .name name (.same _ (index.respells.before _))
  | .call qualifier callee arguments => .spellCall qualifier callee arguments.respells
  | .parentheses inner => .same _ (inner.respells.before _)
  | .unary _ operand => .same _ operand.respells

theorem Arguments.respells : (arguments : Arguments) →
    Respells change arguments.yield (arguments.renamed change).yield
  | .done => .refl change []
  | .more first rest => first.respells.append rest.respellsMore

theorem Arguments.respellsMore : (arguments : Arguments) →
    Respells change arguments.yieldMore (arguments.renamed change).yieldMore
  | .done => .refl change []
  | .more first rest => .same _ (first.respells.append rest.respellsMore)

end

mutual

theorem Statement.respells : (statement : Statement) →
    Respells change statement.yield (statement.renamed change).yield
  | .setVariable name value => .same _ (.name name (.same _ ((value.respells change).before _)))
  | .setElement name index value =>
    .same _ (.name name (.same _ ((index.respells change).append
      (.same _ (.same _ ((value.respells change).before _))))))
  | .ifThen condition body => .same _ (.spellBranch (condition.respells change) body.respells)
  | .ifElse condition body otherwise =>
    .same _ ((Respells.spellBranch (condition.respells change) body.respells).append
      (.same _ (.same _ (otherwise.respells.before _))))
  | .loop condition body => .same _ (.spellBranch (condition.respells change) body.respells)
  | .doCall qualifier callee arguments =>
    .same _ ((Respells.spellCall qualifier callee (arguments.respells change)).before _)
  | .returnNothing => .refl change _
  | .returnValue value => .same _ ((value.respells change).before _)

theorem Statements.respells : (statements : Statements) →
    Respells change statements.yield (statements.renamed change).yield
  | .done => .refl change []
  | .more first rest => first.respells.append rest.respells

end

mutual

theorem Expression.depth_renamed : (expression : Expression) →
    (expression.renamed change).depth = expression.depth
  | .mk first more => by
    rw [Expression.renamed, Expression.depth, first.inner_renamed, more.depth_renamed,
      Expression.depth]

theorem Operators.depth_renamed : (operators : Operators) →
    (operators.renamed change).depth = operators.depth
  | .done => rfl
  | .more operator operand rest => by
    rw [Operators.renamed, Operators.depth, operand.inner_renamed, rest.depth_renamed,
      Operators.depth]

theorem Term.inner_renamed : (term : Term) → (term.renamed change).inner = term.inner
  | .integer _ | .string _ | .constant _ | .variable _ => rfl
  | .element _ index => index.depth_renamed
  | .call _ _ arguments => arguments.depth_renamed
  | .parentheses inner => inner.depth_renamed
  | .unary _ operand => congrArg (· + 1) operand.inner_renamed

theorem Arguments.depth_renamed : (arguments : Arguments) →
    (arguments.renamed change).depth = arguments.depth
  | .done => rfl
  | .more first rest => by
    rw [Arguments.renamed, Arguments.depth, first.depth_renamed, rest.depth_renamed,
      Arguments.depth]

theorem Arguments.length_renamed : (arguments : Arguments) →
    (arguments.renamed change).length = arguments.length
  | .done => rfl
  | .more _ rest => congrArg (· + 1) rest.length_renamed

end

mutual

theorem Statement.depth_renamed : (statement : Statement) →
    (statement.renamed change).depth = statement.depth
  | .setVariable _ value => value.depth_renamed change
  | .setElement _ index value => by
    rw [Statement.renamed, Statement.depth, index.depth_renamed, value.depth_renamed,
      Statement.depth]
  | .ifThen condition body => by
    rw [Statement.renamed, Statement.depth, condition.depth_renamed, body.depth_renamed,
      Statement.depth]
  | .ifElse condition body otherwise => by
    rw [Statement.renamed, Statement.depth, condition.depth_renamed, body.depth_renamed,
      otherwise.depth_renamed, Statement.depth]
  | .loop condition body => by
    rw [Statement.renamed, Statement.depth, condition.depth_renamed, body.depth_renamed,
      Statement.depth]
  | .doCall _ _ arguments => arguments.depth_renamed change
  | .returnNothing => rfl
  | .returnValue value => value.depth_renamed change

theorem Statements.depth_renamed : (statements : Statements) →
    (statements.renamed change).depth = statements.depth
  | .done => rfl
  | .more first rest => by
    rw [Statements.renamed, Statements.depth, first.depth_renamed, rest.depth_renamed,
      Statements.depth]

end

mutual

theorem Statement.numbered_renamed : (statement : Statement) → (numbering : Numbering) →
    (statement.renamed change).numbered numbering = statement.numbered numbering
  | .setVariable .., _ | .setElement .., _ | .doCall .., _ | .returnNothing, _
  | .returnValue _, _ => rfl
  | .ifThen _ body, numbering => body.numbered_renamed numbering.choice
  | .ifElse _ body otherwise, numbering => by
    rw [Statement.renamed, Statement.numbered, body.numbered_renamed, otherwise.numbered_renamed,
      Statement.numbered]
  | .loop _ body, numbering => body.numbered_renamed numbering.loop

theorem Statements.numbered_renamed : (statements : Statements) → (numbering : Numbering) →
    (statements.renamed change).numbered numbering = statements.numbered numbering
  | .done, _ => rfl
  | .more first rest, numbering => by
    rw [Statements.renamed, Statements.numbered, first.numbered_renamed, rest.numbered_renamed,
      Statements.numbered]

end

end

/-- New names stand for what the old ones stood for, and a name that stands for nothing stays. -/
def Environment.Agrees (environment : Environment) (lookup? : String → Option Variable)
    (change : String → String) (names : List String) : Prop :=
  ∀ name ∈ names, lookup? (change name) = environment.lookup? name ∧
    (environment.lookup? name = none → change name = name)

namespace Environment.Agrees

variable {environment : Environment} {lookup? : String → Option Variable}
  {change : String → String} {names others : List String} {name : String}

theorem append (agrees : environment.Agrees lookup? change (names ++ others)) :
    environment.Agrees lookup? change names ∧ environment.Agrees lookup? change others :=
  List.forall_mem_append.1 agrees

theorem cons (agrees : environment.Agrees lookup? change (name :: names)) :
    environment.Agrees lookup? change [name] ∧ environment.Agrees lookup? change names :=
  List.forall_mem_append.1 (show ∀ used ∈ [name] ++ names, _ from agrees)

theorem lookup?_eq (agrees : environment.Agrees lookup? change [name]) :
    lookup? (change name) = environment.lookup? name :=
  (agrees name (List.mem_singleton_self name)).1

theorem push (agrees : environment.Agrees lookup? change [name]) :
    Environment.push { environment with lookup? } (change name) = environment.push name := by
  simp only [Environment.push, agrees.lookup?_eq]

theorem pop (agrees : environment.Agrees lookup? change [name]) :
    Environment.pop { environment with lookup? } (change name) = environment.pop name := by
  simp only [Environment.pop, agrees.lookup?_eq]

theorem declared (agrees : environment.Agrees lookup? change [name]) :
    Environment.declared { environment with lookup? } (change name) =
      environment.declared name := by
  simp only [Environment.declared, agrees.lookup?_eq]

theorem calleeClass (agrees : environment.Agrees lookup? change [name]) :
    Environment.calleeClass { environment with lookup? } (some (change name)) =
      environment.calleeClass (some name) := by
  simp only [Environment.calleeClass, agrees.lookup?_eq]
  cases found : environment.lookup? name with
  | none => exact (agrees name (List.mem_singleton_self name)).2 found
  | some _ => rfl

theorem call {qualifier : Option String} (callee : String) (code : List Instruction) (count : Nat)
    (agrees : environment.Agrees lookup? change qualifier.toList) :
    Environment.call { environment with lookup? } (qualifier.map change) callee code count =
      environment.call qualifier callee code count := by
  cases qualifier with
  | none => rfl
  | some name =>
    rw [Option.map_some, Environment.call, agrees.calleeClass, Environment.receiver, agrees.push]
    rfl

theorem receivers {qualifier : Option String}
    (agrees : environment.Agrees lookup? change qualifier.toList) :
    receivers (Environment.declared { environment with lookup? }) (qualifier.map change) =
      receivers environment.declared qualifier := by
  cases qualifier with
  | none => rfl
  | some name => rw [Option.map_some, Jack.receivers, agrees.declared, Jack.receivers]

end Environment.Agrees

section

variable {environment : Environment} {lookup? : String → Option Variable}
  {change : String → String}

mutual

theorem Expression.valid_renamed : (expression : Expression) →
    environment.Agrees lookup? change expression.references →
    ((expression.renamed change).Valid (Environment.declared { environment with lookup? }) ↔
      expression.Valid environment.declared)
  | .mk first more, agrees =>
    and_congr (first.valid_renamed agrees.append.1) (more.valid_renamed agrees.append.2)

theorem Operators.valid_renamed : (operators : Operators) →
    environment.Agrees lookup? change operators.references →
    ((operators.renamed change).Valid (Environment.declared { environment with lookup? }) ↔
      operators.Valid environment.declared)
  | .done, _ => Iff.rfl
  | .more _ operand rest, agrees =>
    and_congr (operand.valid_renamed agrees.append.1) (rest.valid_renamed agrees.append.2)

theorem Term.valid_renamed : (term : Term) →
    environment.Agrees lookup? change term.references →
    ((term.renamed change).Valid (Environment.declared { environment with lookup? }) ↔
      term.Valid environment.declared)
  | .integer _, _ | .string _, _ | .constant _, _ => Iff.rfl
  | .variable name, agrees => by
    rw [Term.renamed, Term.Valid, agrees.declared, Term.Valid]
  | .element name index, agrees => by
    rw [Term.renamed, Term.Valid, agrees.cons.1.declared, index.valid_renamed agrees.cons.2,
      Term.Valid]
  | .call qualifier callee arguments, agrees => by
    rw [Term.renamed, Term.Valid, arguments.valid_renamed agrees.append.2,
      agrees.append.1.receivers, arguments.length_renamed, Term.Valid]
  | .parentheses inner, agrees => inner.valid_renamed agrees
  | .unary _ operand, agrees => operand.valid_renamed agrees

theorem Arguments.valid_renamed : (arguments : Arguments) →
    environment.Agrees lookup? change arguments.references →
    ((arguments.renamed change).Valid (Environment.declared { environment with lookup? }) ↔
      arguments.Valid environment.declared)
  | .done, _ => Iff.rfl
  | .more first rest, agrees =>
    and_congr (first.valid_renamed agrees.append.1) (rest.valid_renamed agrees.append.2)

end

mutual

theorem Statement.valid_renamed : (statement : Statement) →
    environment.Agrees lookup? change statement.references →
    ((statement.renamed change).Valid (Environment.declared { environment with lookup? }) ↔
      statement.Valid environment.declared)
  | .setVariable name value, agrees => by
    rw [Statement.renamed, Statement.Valid, agrees.append.2.declared,
      value.valid_renamed agrees.append.1, Statement.Valid]
  | .setElement name index value, agrees => by
    rw [Statement.renamed, Statement.Valid, agrees.cons.1.declared,
      index.valid_renamed agrees.cons.2.append.1, value.valid_renamed agrees.cons.2.append.2,
      Statement.Valid]
  | .ifThen condition body, agrees =>
    and_congr (condition.valid_renamed agrees.append.1) (body.valid_renamed agrees.append.2)
  | .ifElse condition body otherwise, agrees =>
    and_congr (condition.valid_renamed agrees.append.1.append.1)
      (and_congr (body.valid_renamed agrees.append.1.append.2)
        (otherwise.valid_renamed agrees.append.2))
  | .loop condition body, agrees =>
    and_congr (condition.valid_renamed agrees.append.1) (body.valid_renamed agrees.append.2)
  | .doCall qualifier callee arguments, agrees => by
    rw [Statement.renamed, Statement.Valid, arguments.valid_renamed agrees.append.2,
      agrees.append.1.receivers, arguments.length_renamed, Statement.Valid]
  | .returnNothing, _ => Iff.rfl
  | .returnValue value, agrees => value.valid_renamed agrees

theorem Statements.valid_renamed : (statements : Statements) →
    environment.Agrees lookup? change statements.references →
    ((statements.renamed change).Valid (Environment.declared { environment with lookup? }) ↔
      statements.Valid environment.declared)
  | .done, _ => Iff.rfl
  | .more first rest, agrees =>
    and_congr (first.valid_renamed agrees.append.1) (rest.valid_renamed agrees.append.2)

end

mutual

theorem Expression.code_renamed : (expression : Expression) →
    environment.Agrees lookup? change expression.references →
    (expression.renamed change).code { environment with lookup? } = expression.code environment
  | .mk first more, agrees => by
    rw [Expression.renamed, Expression.code, first.code_renamed agrees.append.1,
      more.code_renamed agrees.append.2, Expression.code]

theorem Operators.code_renamed : (operators : Operators) →
    environment.Agrees lookup? change operators.references →
    (operators.renamed change).code { environment with lookup? } = operators.code environment
  | .done, _ => rfl
  | .more operator operand rest, agrees => by
    rw [Operators.renamed, Operators.code, operand.code_renamed agrees.append.1,
      rest.code_renamed agrees.append.2, Operators.code]

theorem Term.code_renamed : (term : Term) →
    environment.Agrees lookup? change term.references →
    (term.renamed change).code { environment with lookup? } = term.code environment
  | .integer _, _ | .string _, _ | .constant _, _ => rfl
  | .variable name, agrees => agrees.push
  | .element name index, agrees => by
    rw [Term.renamed, Term.code, agrees.cons.1.push, index.code_renamed agrees.cons.2, Term.code]
  | .call qualifier callee arguments, agrees => by
    rw [Term.renamed, Term.code, arguments.code_renamed agrees.append.2,
      arguments.length_renamed, agrees.append.1.call, Term.code]
  | .parentheses inner, agrees => inner.code_renamed agrees
  | .unary operator operand, agrees => by
    rw [Term.renamed, Term.code, operand.code_renamed agrees, Term.code]

theorem Arguments.code_renamed : (arguments : Arguments) →
    environment.Agrees lookup? change arguments.references →
    (arguments.renamed change).code { environment with lookup? } = arguments.code environment
  | .done, _ => rfl
  | .more first rest, agrees => by
    rw [Arguments.renamed, Arguments.code, first.code_renamed agrees.append.1,
      rest.code_renamed agrees.append.2, Arguments.code]

end

mutual

theorem Statement.code_renamed : (statement : Statement) → (numbering : Numbering) →
    environment.Agrees lookup? change statement.references →
    (statement.renamed change).code { environment with lookup? } numbering =
      statement.code environment numbering
  | .setVariable name value, _, agrees => by
    rw [Statement.renamed, Statement.code, value.code_renamed agrees.append.1,
      agrees.append.2.pop, Statement.code]
  | .setElement name index value, _, agrees => by
    rw [Statement.renamed, Statement.code, agrees.cons.1.push,
      index.code_renamed agrees.cons.2.append.1, value.code_renamed agrees.cons.2.append.2,
      Statement.code]
  | .ifThen condition body, numbering, agrees => by
    rw [Statement.renamed, Statement.code, condition.code_renamed agrees.append.1,
      body.code_renamed numbering.choice agrees.append.2]
    rfl
  | .ifElse condition body otherwise, numbering, agrees => by
    rw [Statement.renamed, Statement.code, condition.code_renamed agrees.append.1.append.1,
      body.code_renamed numbering.choice agrees.append.1.append.2, body.numbered_renamed,
      otherwise.code_renamed _ agrees.append.2]
    rfl
  | .loop condition body, numbering, agrees => by
    rw [Statement.renamed, Statement.code, condition.code_renamed agrees.append.1,
      body.code_renamed numbering.loop agrees.append.2]
    rfl
  | .doCall qualifier callee arguments, _, agrees => by
    rw [Statement.renamed, Statement.code, arguments.code_renamed agrees.append.2,
      arguments.length_renamed, agrees.append.1.call, Statement.code]
  | .returnNothing, _, _ => rfl
  | .returnValue value, _, agrees => by
    rw [Statement.renamed, Statement.code, value.code_renamed agrees, Statement.code]

theorem Statements.code_renamed : (statements : Statements) → (numbering : Numbering) →
    environment.Agrees lookup? change statements.references →
    (statements.renamed change).code { environment with lookup? } numbering =
      statements.code environment numbering
  | .done, _, _ => rfl
  | .more first rest, numbering, agrees => by
    rw [Statements.renamed, Statements.code, first.code_renamed numbering agrees.append.1,
      first.numbered_renamed, rest.code_renamed _ agrees.append.2, Statements.code]

end

end

end Jack
