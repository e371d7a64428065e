import Jack.Proofs.EarliestError
import Jack.Proofs.Layout.Stripped
import Jack.Proofs.Printing
import Jack.Proofs.Writing
import Mathlib.Data.List.Forall2

namespace Jack

/-- Tokens that are the same apart from their places. The text of a constant may differ, but not
its value. -/
structure Token.Agrees (token other : Token) : Prop where
  kind : other.kind = token.kind
  literal : other.literal = token.literal
  lexeme : token.kind.isConstant = false → other.lexeme = token.lexeme

theorem Token.Agrees.stripped {token other : Token} (agrees : token.Agrees other) :
    token.stripped = other.stripped := by
  obtain ⟨kind, lexeme, literal, span, line, startColumn, endColumn⟩ := token
  obtain ⟨kind', lexeme', literal', span', line', startColumn', endColumn'⟩ := other
  obtain ⟨rfl, rfl, same⟩ := agrees
  cases isConstant : kind'.isConstant with
  | true => simp [Token.stripped, isConstant, Token.unspelt, Token.unplaced]
  | false =>
    obtain rfl := same isConstant
    simp [Token.stripped, isConstant, Token.unplaced]

/-- Errors that are the same apart from the lines and columns of tokens and the text of constants.
An unexpected token, and a constant out of range, stands at the same place among the tokens. -/
inductive CompileError.Agrees (tokens others : List Token) : CompileError → CompileError → Prop
  | unexpected {error other : SyntaxError} {place : Nat} (reports : error.Reports tokens place)
      (reportsOther : other.Reports others place) (expected : other.expected = error.expected) :
      Agrees tokens others (.unexpected error) (.unexpected other)
  | declaration (line lineOther : Nat) (error : ScopeError) :
      Agrees tokens others (.declaration line error) (.declaration lineOther error)
  | undefined (line lineOther : Nat) (name : String) :
      Agrees tokens others (.undefined line name) (.undefined lineOther name)
  | constantRange {constant other : Token} {place : Nat}
      (isAt : tokens[place]? = some constant) (isAtOther : others[place]? = some other)
      (isConstant : constant.kind.isConstant = true) :
      Agrees tokens others (.constantRange constant.line constant.lexeme)
        (.constantRange other.line other.lexeme)
  | tooManyArguments (line lineOther : Nat) (callee : String) :
      Agrees tokens others (.tooManyArguments line callee) (.tooManyArguments lineOther callee)
  | nestingTooDeep (line lineOther limit : Nat) :
      Agrees tokens others (.nestingTooDeep line limit) (.nestingTooDeep lineOther limit)

/-- Results that are the same, or errors that are related. -/
inductive ResultsAgree {ε α : Type} (related : ε → ε → Prop) : Except ε α → Except ε α → Prop
  | ok (value : α) : ResultsAgree related (.ok value) (.ok value)
  | error {error other : ε} (holds : related error other) :
      ResultsAgree related (.error error) (.error other)

/-- Failures that are the same, or errors that agree. -/
inductive Compilation.Failure.Agrees (tokens others : List Token) : Failure → Failure → Prop
  | sink (error : SinkError) : Agrees tokens others (.sink error) (.sink error)
  | refused {error other : CompileError} (agrees : CompileError.Agrees tokens others error other) :
      Agrees tokens others (.refused error) (.refused other)

/-- Actions that are the same apart from places, and are about constants at the same place. -/
structure Action.Agrees (tokens others : List Token) (action other : Action) : Prop where
  same : action.stripped = other.stripped
  constants : ∀ constant, action.constant? = some constant →
    ∃ (place : Nat) (second : Token), other.constant? = some second ∧
      tokens[place]? = some constant ∧ others[place]? = some second ∧
      constant.kind.isConstant = true

theorem Action.constant?_stripped (action : Action) :
    action.stripped.constant? = action.constant?.map Token.unspelt := by
  cases action <;> rfl

namespace Recognizer

variable {tokens others : List Token} {here there next last : Recognizer} {actions : List Action}

/-- Two recognizers that stand at the same place among tokens, and are asked for the same. -/
structure Twins (tokens others : List Token) (here there : Recognizer) : Prop where
  goals : here.goals.map Goal.stripped = there.goals.map Goal.stripped
  rest : here.stream.rest.map Token.stripped = there.stream.rest.map Token.stripped
  place : here.stream.taken.length = there.stream.taken.length
  numbering : here.numbering = there.numbering
  whole : here.stream.taken.reverse ++ here.stream.rest = tokens
  wholeOther : there.stream.taken.reverse ++ there.stream.rest = others
  free : here.goals.all Goal.isFree = true
  freeOther : there.goals.all Goal.isFree = true

theorem twins_ofTokens (agree : List.Forall₂ Token.Agrees tokens others) :
    Twins tokens others (ofTokens tokens) (ofTokens others) where
  goals := rfl
  rest := by
    show tokens.map Token.stripped = others.map Token.stripped
    induction agree with
    | nil => rfl
    | cons first _ ih => rw [List.map_cons, List.map_cons, first.stripped, ih]
  place := rfl
  numbering := rfl
  whole := rfl
  wholeOther := rfl
  free := rfl
  freeOther := rfl

/-- Actions that are the same when they are stripped agree, if they are about no other constants
than those at one place. -/
theorem agrees_of_about {place : Nat} {token other : Token} {step stepOther : Goal.Step}
    (same : step.actions.map Action.stripped = stepOther.actions.map Action.stripped)
    (isAt : tokens[place]? = some token) (isAtOther : others[place]? = some other)
    (about : step.About token) (aboutOther : stepOther.About other) :
    List.Forall₂ (Action.Agrees tokens others) step.actions stepOther.actions := by
  have constants := about.actions
  have constantsOther := aboutOther.actions
  generalize step.actions = first, stepOther.actions = second at same constants constantsOther
  induction first generalizing second with
  | nil =>
    obtain rfl := List.map_eq_nil_iff.1 same.symm
    exact .nil
  | cons action first ih =>
    obtain ⟨actionOther, more, rfl, stripped, strippedMore⟩ := List.map_eq_cons_iff.1 same.symm
    obtain ⟨own, inner⟩ := List.forall_mem_cons.1 constants
    obtain ⟨ownOther, innerOther⟩ := List.forall_mem_cons.1 constantsOther
    refine .cons ⟨stripped.symm, fun constant isConstant => ?_⟩
      (ih more strippedMore.symm inner innerOther)
    obtain ⟨rfl, kind⟩ := own constant isConstant
    have both := congrArg Action.constant? stripped
    rw [Action.constant?_stripped, Action.constant?_stripped, isConstant] at both
    obtain ⟨found, isFound, -⟩ := Option.map_eq_some_iff.1 both
    obtain ⟨rfl, -⟩ := ownOther found isFound
    exact ⟨place, found, isFound, isAt, isAtOther, kind⟩

/-- Without constants there is nothing else to agree in. -/
theorem agrees_of_free {first second : List Action}
    (same : first.map Action.stripped = second.map Action.stripped)
    (free : first.all (·.constant?.isNone) = true) :
    List.Forall₂ (Action.Agrees tokens others) first second := by
  induction first generalizing second with
  | nil =>
    obtain rfl := List.map_eq_nil_iff.1 same.symm
    exact .nil
  | cons action first ih =>
    obtain ⟨other, more, rfl, stripped, strippedMore⟩ := List.map_eq_cons_iff.1 same.symm
    obtain ⟨own, inner⟩ := Bool.and_eq_true_iff.1 free
    refine .cons ⟨stripped.symm, fun constant isConstant => ?_⟩ (ih strippedMore.symm inner)
    have isNone : action.constant?.isNone = true := own
    rw [isConstant] at isNone
    cases isNone

theorem getElem?_whole {taken rest : List Token} {token : Token} :
    (taken.reverse ++ token :: rest)[taken.length]? = some token := by
  rw [← List.length_reverse, List.getElem?_append_right (Nat.le_refl _), Nat.sub_self]
  rfl

theorem stays_of_stripped {goal other : Goal} {rest rest' : List Token} {numbering : Numbering}
    (same : other.stripped = goal.stripped)
    (ahead : rest.map Token.stripped = rest'.map Token.stripped)
    (stays : ∀ token ∈ rest.head?, goal.take? numbering token = none) :
    ∀ token ∈ rest'.head?, other.take? numbering token = none := by
  intro token' head
  have heads := congrArg List.head? ahead
  rw [List.head?_map, List.head?_map, Option.mem_def.1 head] at heads
  obtain ⟨token, head, strippedToken⟩ := Option.map_eq_some_iff.1 heads
  have took := other.take?_stripped numbering token'
  rw [same, ← strippedToken, Goal.take?_stripped, stays token head] at took
  exact Option.map_eq_none_iff.1 took.symm

/-- Twins take a step together, and remain twins. -/
theorem Twins.step (twins : Twins tokens others here there)
    (moved : here.step = .ok (actions, next)) :
    ∃ actions' next', there.step = .ok (actions', next') ∧ Twins tokens others next next' ∧
      List.Forall₂ (Action.Agrees tokens others) actions actions' := by
  obtain ⟨goalsThere, ⟨taken', rest'⟩, numbering'⟩ := there
  obtain ⟨goal, goals, taken, rest, numbering, step, rfl, taking | passing⟩ := step_cases moved
  · obtain ⟨token, rfl, took, rfl⟩ := taking
    obtain ⟨asked, ahead, place, rfl, whole, wholeOther, free, freeOther⟩ := twins
    obtain ⟨other, goals', rfl, strippedGoal, strippedGoals⟩ := List.map_eq_cons_iff.1 asked.symm
    obtain ⟨token', rest', rfl, strippedToken, strippedRest⟩ := List.map_eq_cons_iff.1 ahead.symm
    have same := other.take?_stripped numbering token'
    rw [strippedGoal, strippedToken, Goal.take?_stripped, took] at same
    obtain ⟨step', took', strippedStep⟩ := Option.map_eq_some_iff.1 same.symm
    have about := Goal.about_take? took
    have about' := Goal.about_take? took'
    have actions := congrArg Goal.Step.actions strippedStep
    have inner := congrArg Goal.Step.goals strippedStep
    have isAt : tokens[taken.length]? = some token := whole ▸ getElem?_whole
    have isAtOther : others[taken.length]? = some token' := by
      rw [show taken.length = taken'.length from place]
      exact wholeOther ▸ getElem?_whole
    have kind : token'.kind = token.kind := by
      rw [← token.kind_stripped, ← token'.kind_stripped, strippedToken]
    refine ⟨_, _, step_take step' took', ?_,
      agrees_of_about actions.symm isAt isAtOther about about'⟩
    constructor
    · rw [List.map_append, List.map_append, strippedGoals]
      exact congrArg (· ++ _) inner.symm
    · exact strippedRest.symm
    · exact congrArg (· + 1) place
    · simp only [Numbering.after, kind]
    · rw [← whole, List.reverse_cons, List.append_assoc]
      rfl
    · rw [← wholeOther, List.reverse_cons, List.append_assoc]
      rfl
    · rw [List.all_append, about.goals, (Bool.and_eq_true_iff.1 free).2]
      rfl
    · rw [List.all_append, about'.goals, (Bool.and_eq_true_iff.1 freeOther).2]
      rfl
  · obtain ⟨line, rfl, stays, moves, rfl⟩ := passing
    obtain ⟨asked, ahead, place, rfl, whole, wholeOther, free, freeOther⟩ := twins
    obtain ⟨other, goals', rfl, strippedGoal, strippedGoals⟩ := List.map_eq_cons_iff.1 asked.symm
    have stays' := stays_of_stripped strippedGoal ahead stays
    have same := other.otherwise_stripped (TokenStream.line ⟨taken', rest'⟩)
    rw [strippedGoal, ← goal.otherwise_stripped line, moves] at same
    cases moves' : other.otherwise (TokenStream.line ⟨taken', rest'⟩) with
    | error expected => rw [moves'] at same; cases same
    | ok step' =>
      rw [moves'] at same
      have strippedStep : step'.stripped = step.stripped := Except.ok.inj same
      have actions := congrArg Goal.Step.actions strippedStep
      have inner := congrArg Goal.Step.goals strippedStep
      obtain ⟨own, more⟩ := Bool.and_eq_true_iff.1 free
      obtain ⟨ownOther, moreOther⟩ := Bool.and_eq_true_iff.1 freeOther
      obtain ⟨noConstants, freeStep⟩ := Goal.free_otherwise own moves
      obtain ⟨-, freeStep'⟩ := Goal.free_otherwise ownOther moves'
      refine ⟨_, _, step_pass step' stays' moves', ?_, agrees_of_free actions.symm noConstants⟩
      refine ⟨?_, ahead, place, rfl, whole, wholeOther, ?_, ?_⟩
      · rw [List.map_append, List.map_append, strippedGoals]
        exact congrArg (· ++ _) inner.symm
      · rw [List.all_append, freeStep, more]
        rfl
      · rw [List.all_append, freeStep', moreOther]
        rfl

/-- A goal stops recognition if it can neither take the next token nor do without it. -/
theorem step_eq_error_iff {goal : Goal} {goals : List Goal} {taken rest : List Token}
    {numbering : Numbering} {error : Option SyntaxError} :
    (⟨goal :: goals, ⟨taken, rest⟩, numbering⟩ : Recognizer).step = .error error ↔
      (∀ token ∈ rest.head?, goal.take? numbering token = none) ∧
        ∃ expected, goal.otherwise (TokenStream.line ⟨taken, rest⟩) = .error expected ∧
          error = some (TokenStream.unexpected ⟨taken, rest⟩ expected) := by
  have takes : take? goal goals ⟨taken, rest⟩ numbering = none ↔
      ∀ token ∈ rest.head?, goal.take? numbering token = none := by
    cases rest with
    | nil => exact iff_of_true rfl fun _ head => nomatch head
    | cons token rest =>
      exact Option.map_eq_none_iff.trans ⟨fun none _ head => Option.some.inj head ▸ none,
        fun stays => stays token rfl⟩
  rw [← takes]
  cases took : take? goal goals ⟨taken, rest⟩ numbering with
  | some found => simp [step, took]
  | none => cases moves : goal.otherwise (TokenStream.line ⟨taken, rest⟩) <;>
      simp [step, took, moves, eq_comm]

/-- Twins stop together, with the same expectation. -/
theorem Twins.stops {error : Option SyntaxError} (twins : Twins tokens others here there)
    (stopped : here.step = .error error) :
    (error = none ∧ there.step = .error none) ∨ ∃ expected,
      error = some (here.stream.unexpected expected) ∧
      there.step = .error (some (there.stream.unexpected expected)) := by
  obtain ⟨goalsHere, ⟨taken, rest⟩, numbering⟩ := here
  obtain ⟨goalsThere, ⟨taken', rest'⟩, numbering'⟩ := there
  obtain ⟨asked, ahead, place, rfl, -, -, -, -⟩ := twins
  rcases goalsHere with _ | ⟨goal, goals⟩
  · obtain rfl := List.map_eq_nil_iff.1 asked.symm
    rcases rest with _ | ⟨token, rest⟩
    · obtain rfl := List.map_eq_nil_iff.1 ahead.symm
      cases stopped
      exact .inl ⟨rfl, rfl⟩
    · obtain ⟨token', rest', rfl, -, -⟩ := List.map_eq_cons_iff.1 ahead.symm
      cases stopped
      exact .inr ⟨_, rfl, rfl⟩
  · obtain ⟨other, goals', rfl, strippedGoal, -⟩ := List.map_eq_cons_iff.1 asked.symm
    obtain ⟨stays, expected, moves, rfl⟩ := step_eq_error_iff.1 stopped
    have same := other.otherwise_stripped (TokenStream.line ⟨taken', rest'⟩)
    rw [strippedGoal, ← goal.otherwise_stripped (TokenStream.line ⟨taken, rest⟩), moves] at same
    refine .inr ⟨expected, rfl, step_eq_error_iff.2 ⟨?_, expected, ?_, rfl⟩⟩
    · exact stays_of_stripped strippedGoal ahead stays
    · cases moves' : other.otherwise (TokenStream.line ⟨taken', rest'⟩) with
      | error expected' =>
        rw [moves'] at same
        exact same
      | ok step' =>
        rw [moves'] at same
        cases same

theorem Twins.reaches (twins : Twins tokens others here there) (reach : Reaches here actions last) :
    ∃ actions' last', Reaches there actions' last' ∧ Twins tokens others last last' ∧
      List.Forall₂ (Action.Agrees tokens others) actions actions' := by
  induction reach generalizing there with
  | refl here => exact ⟨[], there, .refl there, twins, .nil⟩
  | step moved _ ih =>
    obtain ⟨first', next', moved', twinsNext, agree⟩ := twins.step moved
    obtain ⟨rest', last', reach', twinsLast, agreeRest⟩ := ih twinsNext
    exact ⟨_, last', .step moved' reach', twinsLast, List.rel_append agree agreeRest⟩

/-- How recognition ends for tokens that agree. -/
theorem run_agrees (agree : List.Forall₂ Token.Agrees tokens others) :
    List.Forall₂ (Action.Agrees tokens others) (ofTokens tokens).run.1 (ofTokens others).run.1 ∧
      (((ofTokens tokens).run.2 = none ∧ (ofTokens others).run.2 = none) ∨
        ∃ error other, (ofTokens tokens).run.2 = some error ∧
          (ofTokens others).run.2 = some other ∧
          CompileError.Agrees tokens others (.unexpected error) (.unexpected other)) := by
  obtain ⟨last, reach, stopped⟩ := reaches_stop (ofTokens tokens)
  obtain ⟨actions, last', reach', twins, agrees⟩ := (twins_ofTokens agree).reaches reach
  rcases twins.stops stopped with ⟨ended, stopped'⟩ | ⟨expected, isError, stopped'⟩
  · rw [reach'.run stopped']
    exact ⟨agrees, .inl ⟨ended, rfl⟩⟩
  · rw [reach'.run stopped']
    have reports := TokenStream.reports_unexpected last.stream.taken last.stream.rest expected
    have reports' := TokenStream.reports_unexpected last'.stream.taken last'.stream.rest expected
    rw [twins.whole] at reports
    rw [twins.wholeOther, ← twins.place] at reports'
    have same : (last'.stream.unexpected expected).expected =
        (last.stream.unexpected expected).expected := by
      rw [TokenStream.expected_unexpected, TokenStream.expected_unexpected]
    exact ⟨agrees, .inr ⟨_, _, isError, rfl, .unexpected reports reports' same⟩⟩

end Recognizer

namespace Generator

variable {tokens others : List Token} {limit : Nat} {generator : Generator}

/-- Errors of actions that agree. -/
theorem error_agrees {action other : Action} {error second : CompileError}
    (agrees : action.Agrees tokens others other)
    (refused : (generator.perform limit action).2 = .error error)
    (refusedOther : (generator.perform limit other).2 = .error second)
    (same : error.stripped = second.stripped) : CompileError.Agrees tokens others error second := by
  cases error with
  | constantRange line lexeme =>
    obtain ⟨constant, isConstant, rfl, rfl⟩ := generator.constant?_of_constantRange refused
    obtain ⟨place, constantOther, isOther, isAt, isAtOther, kind⟩ :=
      agrees.constants constant isConstant
    cases second <;> cases same
    obtain ⟨found, isFound, rfl, rfl⟩ := generator.constant?_of_constantRange refusedOther
    obtain rfl := Option.some.inj (isOther.symm.trans isFound)
    exact .constantRange isAt isAtOther kind
  | unexpected error => exact absurd refused (generator.perform_ne_unexpected limit action error)
  | declaration line error =>
    cases second <;> cases same
    exact .declaration ..
  | undefined line name =>
    cases second <;> cases same
    exact .undefined ..
  | tooManyArguments line callee =>
    cases second <;> cases same
    exact .tooManyArguments ..
  | nestingTooDeep line limit =>
    cases second <;> cases same
    exact .nestingTooDeep ..

theorem perform_agrees (generator : Generator) (limit : Nat) {action other : Action}
    (agrees : action.Agrees tokens others other) :
    (generator.perform limit action).1 = (generator.perform limit other).1 ∧
      ResultsAgree (CompileError.Agrees tokens others) (generator.perform limit action).2
        (generator.perform limit other).2 := by
  have same := generator.perform_stripped limit action
  rw [agrees.same, perform_stripped] at same
  have events := congrArg Prod.fst same
  have results := congrArg Prod.snd same
  refine ⟨events.symm, ?_⟩
  simp only [Outcome.stripped] at results
  cases refused : (generator.perform limit action).2 with
  | ok later =>
    cases refusedOther : (generator.perform limit other).2 with
    | ok laterOther =>
      rw [refused, refusedOther] at results
      obtain rfl : laterOther = later := Except.ok.inj results
      exact .ok _
    | error second =>
      rw [refused, refusedOther] at results
      cases results
  | error error =>
    cases refusedOther : (generator.perform limit other).2 with
    | ok laterOther =>
      rw [refused, refusedOther] at results
      cases results
    | error second =>
      rw [refused, refusedOther] at results
      have stripped : second.stripped = error.stripped := Except.error.inj results
      exact .error (error_agrees agrees refused refusedOther stripped.symm)

theorem performAll_agrees (generator : Generator) (limit : Nat) {actions actions' : List Action}
    (agree : List.Forall₂ (Action.Agrees tokens others) actions actions') :
    (generator.performAll limit actions).1 = (generator.performAll limit actions').1 ∧
      ResultsAgree (CompileError.Agrees tokens others) (generator.performAll limit actions).2
        (generator.performAll limit actions').2 := by
  induction agree generalizing generator with
  | nil => exact ⟨rfl, .ok _⟩
  | @cons action other actions actions' agrees _ ih =>
    obtain ⟨sameFirst, results⟩ := generator.perform_agrees limit agrees
    rw [performAll_cons, performAll_cons]
    rcases performed : generator.perform limit action with ⟨events, result⟩
    rcases performedOther : generator.perform limit other with ⟨eventsOther, resultOther⟩
    rw [performed, performedOther] at sameFirst results
    obtain rfl : events = eventsOther := sameFirst
    cases results with
    | ok later =>
      obtain ⟨same, further⟩ := ih later
      exact ⟨congrArg (events ++ ·) same, further⟩
    | error holds => exact ⟨rfl, .error holds⟩

end Generator

/-- Tokens that agree amount to the same code, and their results agree. -/
theorem ClassCode.ofTokens_agrees (limit : Nat) {tokens others : List Token}
    (agree : List.Forall₂ Token.Agrees tokens others) :
    (ofTokens limit others).instructions = (ofTokens limit tokens).instructions ∧
      ResultsAgree (CompileError.Agrees tokens others) (ofTokens limit tokens).result
        (ofTokens limit others).result := by
  obtain ⟨actions, ends⟩ := Recognizer.run_agrees agree
  obtain ⟨events, results⟩ := Generator.start.performAll_agrees limit actions
  rcases performed : Generator.start.performAll limit (Recognizer.ofTokens tokens).run.1
    with ⟨emitted, result⟩
  rcases performedOther : Generator.start.performAll limit (Recognizer.ofTokens others).run.1
    with ⟨emittedOther, resultOther⟩
  rw [performed, performedOther] at events results
  obtain rfl : emitted = emittedOther := events
  simp only [ofTokens, instructions, performed, performedOther]
  cases results with
  | error holds => exact ⟨rfl, .error holds⟩
  | ok later =>
    rcases ends with ⟨none, noneOther⟩ | ⟨error, other, isError, isOther, holds⟩
    · rw [none, noneOther]
      exact ⟨rfl, .ok later⟩
    · rw [isError, isOther]
      exact ⟨rfl, .error holds⟩

/-- What is compiled from tokens that agree: whatever the sink is, it holds the same, and the
results are the same up to what errors name. -/
theorem Compilation.ofTokens_agrees (limit : Nat) {tokens others : List Token}
    (agree : List.Forall₂ Token.Agrees tokens others) (sink : Sink) :
    (ofTokens limit others sink).sink = (ofTokens limit tokens sink).sink ∧
      ResultsAgree (Failure.Agrees tokens others) (ofTokens limit tokens sink).result
        (ofTokens limit others sink).result := by
  obtain ⟨instructions, results⟩ := ClassCode.ofTokens_agrees limit agree
  have held : (ofTokens limit others sink).sink = (ofTokens limit tokens sink).sink := by
    rw [ofTokens, ofTokens, sink_ofCode, sink_ofCode, instructions]
  refine ⟨held, ?_⟩
  rw [ofTokens, ofTokens, result_ofCode, result_ofCode, instructions]
  generalize (ClassCode.ofTokens limit tokens).result = result,
    (ClassCode.ofTokens limit others).result = resultOther at results ⊢
  generalize (Writer.ofSink sink).writeAll (ClassCode.ofTokens limit tokens).instructions = written
  obtain ⟨writer, _ | error⟩ := written
  · cases results with
    | ok generator =>
      simp only [ended]
      cases writer.flush with
      | none => exact .ok _
      | some error => exact .error (.sink error)
    | error holds => exact .error (.refused holds)
  · exact .error (.sink error)

/-- Blanks, comments and characters that start no token. -/
def Piece.isSkipped : Piece → Bool
  | blank _ | lineComment _ | blockComment _ | openComment _ | stray _ => true
  | word _ | number _ | closedString _ | openString _ | symbol _ => false

theorem Piece.skipped_of_isSkipped {piece : Piece} (is : piece.isSkipped = true) :
    piece.Skipped := by
  cases piece with
  | blank c => exact .blank c
  | lineComment body => exact .lineComment body
  | blockComment body => exact .blockComment body
  | openComment body => exact .openComment body
  | stray c => exact .stray c
  | _ => cases is

/-- What tokens a piece gives, apart from their places. -/
def Piece.faces (piece : Piece) : List (Token.Kind × String × Option Literal) :=
  (Finding.tokens (Finding.ofPiece .start piece)).map Token.face

theorem Piece.faces_eq (piece : Piece) (place : Position) :
    (Finding.tokens (Finding.ofPiece place piece)).map Token.face = piece.faces := by
  unfold faces
  rcases piece.skipped_or_reads with skipped | ⟨kind, literal, reads⟩
  · rw [(skipped.found place).1, (skipped.found .start).1]
  · rw [(reads.found place).1, (reads.found .start).1]
    rfl

theorem Finding.faces_ofPieces (place : Position) (pieces : List Piece) :
    (tokens (ofPieces place pieces)).map Token.face =
      (pieces.filter (!·.isSkipped)).flatMap Piece.faces := by
  induction pieces generalizing place with
  | nil => rfl
  | cons piece pieces ih =>
    rw [(Scans.found_cons place piece pieces).1, List.map_append, piece.faces_eq, ih]
    cases is : piece.isSkipped with
    | false => rw [List.filter_cons_of_pos (by rw [is]; rfl), List.flatMap_cons]
    | true =>
      have nothing : piece.faces = [] := by
        rw [Piece.faces, ((Piece.skipped_of_isSkipped is).found .start).1]
        rfl
      rw [List.filter_cons_of_neg (by rw [is]; decide), nothing, List.nil_append]

theorem Token.agrees_of_face {tokens others : List Token}
    (same : tokens.map face = others.map face) : List.Forall₂ Token.Agrees tokens others := by
  induction tokens generalizing others with
  | nil =>
    obtain rfl := List.map_eq_nil_iff.1 same.symm
    exact .nil
  | cons token tokens ih =>
    obtain ⟨other, more, rfl, isSame, sameMore⟩ := List.map_eq_cons_iff.1 same.symm
    obtain ⟨kind, behind⟩ := Prod.ext_iff.1 isSame
    obtain ⟨lexeme, literal⟩ := Prod.ext_iff.1 behind
    exact .cons ⟨kind, literal, fun _ => lexeme⟩ (ih sameMore.symm)

/-- Layout decides nothing. Tokens that agree apart from their places and from the text of constants
leave the same in any sink, and end with the same summary or with errors that agree. So do source
texts with the same pieces, apart from what is skipped between their tokens. -/
theorem Compilation.layout_independent (limit : Nat) :
    (∀ (tokens others : List Token) (sink : Sink), List.Forall₂ Token.Agrees tokens others →
      (ofTokens limit others sink).sink = (ofTokens limit tokens sink).sink ∧
        ResultsAgree (Failure.Agrees tokens others) (ofTokens limit tokens sink).result
          (ofTokens limit others sink).result) ∧
    ∀ (source other : String) (sink : Sink),
      (Piece.cut source.toList).filter (!·.isSkipped) =
        (Piece.cut other.toList).filter (!·.isSkipped) →
      (ofSource limit other sink).sink = (ofSource limit source sink).sink ∧
        ResultsAgree (Failure.Agrees (Finding.tokens (Finding.ofSource source))
            (Finding.tokens (Finding.ofSource other)))
          (ofSource limit source sink).result (ofSource limit other sink).result := by
  refine ⟨fun _ _ sink agree => ofTokens_agrees limit agree sink, fun source other sink same => ?_⟩
  have faces := (Finding.faces_ofPieces .start (Piece.cut source.toList)).trans
    ((congrArg (List.flatMap Piece.faces) same).trans
      (Finding.faces_ofPieces .start (Piece.cut other.toList)).symm)
  exact ofTokens_agrees limit (Token.agrees_of_face faces) sink

/-- A class with a comment and a character that starts no token, and the same class without. -/
theorem Compilation.layout_independent_comment :
    (ofSource 1 "/* a */ class # A\n{function int f() {return 1;}}" .unlimited).sink =
      (ofSource 1 "class A{function int f(){return 1;}} // b" .unlimited).sink := by
  have same : (Piece.cut "class A{function int f(){return 1;}} // b".toList).filter
        (!·.isSkipped) =
      (Piece.cut "/* a */ class # A\n{function int f() {return 1;}}".toList).filter
        (!·.isSkipped) := by
    decide +kernel
  exact ((layout_independent 1).2 _ _ .unlimited same).1

end Jack
