import Jack.Proofs.Diagnosis.Grounds
import Jack.Proofs.Diagnosis.Refusals
import Jack.Proofs.Diagnosis.Runs

namespace Jack

/-- The last of the tokens taken, of which there is one, is none that only a name may follow. -/
def Calm (inside : List Token) : Prop :=
  ∃ last more, inside = last :: more ∧
    last.kind ∉ [.keyword .kwLet, .keyword .kwDo, .symbol .dot]

theorem Calm.cons {last : Token}
    (calm : last.kind ∉ [.keyword .kwLet, .keyword .kwDo, .symbol .dot]) (more : List Token) :
    Calm (last :: more) :=
  ⟨last, more, rfl, calm⟩

theorem Calm.symbol {last : Token} {mark : Symbol} (is : last.kind = .symbol mark)
    (other : mark ≠ .dot) (more : List Token) : Calm (last :: more) :=
  .cons (by simp [is, other]) more

namespace Goal

/-- Goals that may wait behind others in the middle of statements, where some names are known to be
variables. -/
def waits (known : String → Bool) : Goal → Bool
  | .token (.symbol mark) => mark ≠ .dot
  | .perform [.store name] => known name.lexeme
  | .perform [.argument ..] => true
  | .perform actions => actions.all Action.isSafe
  | .statements | .elseBranch | .nest | .term | .operators | .moreArguments .. => true
  | _ => false

/-- What the tokens taken since the statements began end with where a goal comes first. The last one
taken comes first. -/
def PrecededBy (known : String → Bool) (inside : List Token) : Goal → Prop
  | .letName => ∃ word more, inside = word :: more ∧ word.kind = .keyword .kwLet
  | .letTarget name => known name.lexeme = true
  | .doCall => ∃ word more, inside = word :: more ∧ word.kind = .keyword .kwDo
  | .returnValue => Calm inside
  | .nameTail name => ∃ more, inside = name :: more ∧ name.kind = .identifier ∧ Calm more
  | .callTail name => ∃ word more, inside = name :: word :: more ∧ name.kind = .identifier ∧
      word.kind = .keyword .kwDo
  | .calleeName qualifier => ∃ dot more, inside = dot :: qualifier :: more ∧
      dot.kind = .symbol .dot
  | .openCall call => ∃ dot qualifier more, inside = call.callee :: dot :: qualifier :: more ∧
      call.callee.kind = .identifier ∧ dot.kind = .symbol .dot ∧ call.qualifier = some qualifier
  | .arguments call => ∃ opening more, inside = opening :: call.callee :: more ∧
      call.callee.kind = .identifier ∧ opening.kind = .symbol .leftParen ∧
      ∀ before, qualifier? (more ++ before).reverse = call.qualifier.map Token.lexeme
  | goal => Calm inside ∧ goal.waits known = true

/-- Goals in the middle of statements: one that the tokens taken lead to, and others that wait. -/
def Stacked (known : String → Bool) (inside : List Token) : List Goal → Prop
  | [] => Calm inside
  | goal :: goals => goal.PrecededBy known inside ∧ goals.all (waits known) = true

variable {known : String → Bool} {inside : List Token} {goal : Goal} {goals others : List Goal}
  {token : Token} {numbering : Numbering} {step : Step} {line : Nat}

theorem PrecededBy.of_waits (calm : Calm inside) (waits : goal.waits known = true) :
    goal.PrecededBy known inside := by
  unfold PrecededBy
  split <;> first | cases waits | exact ⟨calm, waits⟩

theorem Stacked.of_all (calm : Calm inside) (all : goals.all (waits known) = true) :
    Stacked known inside goals := by
  cases goals with
  | nil => exact calm
  | cons goal goals =>
    obtain ⟨first, others⟩ := Bool.and_eq_true_iff.1 all
    exact ⟨.of_waits calm first, others⟩

theorem Stacked.append (stacked : Stacked known inside goals)
    (all : others.all (waits known) = true) : Stacked known inside (goals ++ others) := by
  cases goals with
  | nil => exact .of_all stacked all
  | cons goal goals =>
    have both : (goals ++ others).all (waits known) = true := by
      rw [List.all_append, stacked.2, all]
      rfl
    exact ⟨stacked.1, both⟩

theorem stacked_takeStatement? (took : takeStatement? numbering token = some step) :
    Stacked known (token :: inside) step.goals := by
  unfold takeStatement? at took
  split at took <;> rename_i is <;> simp only [Option.some.injEq, reduceCtorEq] at took <;>
    subst took
  · exact ⟨⟨token, inside, rfl, is⟩, rfl⟩
  · exact .of_all (.cons (by simp [is]) _) rfl
  · exact .of_all (.cons (by simp [is]) _) rfl
  · exact ⟨⟨token, inside, rfl, is⟩, rfl⟩
  · exact ⟨.cons (by simp [is]) _, rfl⟩

theorem stacked_takeTerm? (calm : Calm inside) (took : takeTerm? token = some step) :
    Stacked known (token :: inside) step.goals := by
  unfold takeTerm? at took
  split at took <;> rename_i is <;> simp only [Option.some.injEq, reduceCtorEq] at took <;>
    subst took
  all_goals first
    | exact ⟨⟨inside, rfl, is, calm⟩, rfl⟩
    | exact .of_all (.cons (by simp [is]) _) rfl

/-- Behind a name that no dot precedes comes a call of its own. -/
theorem stacked_takeCall? {name last : Token} {more : List Token}
    (isName : name.kind = .identifier) (other : last.kind ≠ .symbol .dot)
    (took : takeCall? token name = some step) :
    Stacked known (token :: name :: last :: more) step.goals := by
  have alone (before : List Token) : qualifier? (last :: more ++ before).reverse = none := by
    rw [qualifier?, List.reverse_reverse]
    cases behind : more ++ before <;> simp [behind, other]
  unfold takeCall? at took
  split at took <;> rename_i is <;> simp only [Option.some.injEq, reduceCtorEq] at took <;>
    subst took
  · exact ⟨⟨token, last :: more, rfl, isName, is, alone⟩, rfl⟩
  · exact ⟨⟨token, last :: more, rfl, is⟩, rfl⟩

/-- Taking a token leads from goals in the middle of statements to others. -/
theorem stacked_take (preceded : goal.PrecededBy known inside)
    (took : goal.take? numbering token = some step)
    (resolved : ∀ name, .resolve name ∈ step.actions → known name.lexeme = true) :
    Stacked known (token :: inside) step.goals := by
  cases goal <;> simp only [take?, reduceCtorEq] at took
  case statements => exact stacked_takeStatement? took
  case term => exact stacked_takeTerm? preceded.1 took
  case nameTail name =>
    obtain ⟨more, rfl, isName, last, before, rfl, calm⟩ := preceded
    split at took
    · rename_i is
      obtain rfl := Option.some.inj took
      exact .of_all (.symbol is (by decide) _) rfl
    · exact stacked_takeCall? isName (fun is => calm (by simp [is])) took
  case callTail name =>
    obtain ⟨word, more, rfl, isName, is⟩ := preceded
    exact stacked_takeCall? isName (by simp [is]) took
  case operators =>
    split at took
    · rename_i mark is
      obtain ⟨instruction, isOperator, rfl⟩ := Option.map_eq_some_iff.1 took
      exact .of_all (.symbol is (by rintro rfl; cases isOperator) _) rfl
    · cases took
  case token kind =>
    obtain ⟨is, rfl⟩ := eq_of_takeIf took
    cases kind with
    | symbol mark => exact .symbol is (of_decide_eq_true preceded.2) _
    | _ => exact absurd preceded.2 Bool.false_ne_true
  case letName =>
    obtain ⟨is, rfl⟩ := eq_of_takeIf took
    exact ⟨resolved token (List.mem_singleton_self _), rfl⟩
  case letTarget name =>
    split at took <;> rename_i is <;> simp only [Option.some.injEq, reduceCtorEq] at took <;>
      subst took
    · exact .of_all (.symbol is (by decide) _) rfl
    · have all : List.all (expression ++ [perform [.store name], symbol .semicolon])
          (waits known) = true := by
        have isKnown : known name.lexeme = true := preceded
        simpa [expression, waits, symbol, Action.isSafe] using isKnown
      exact .of_all (.symbol is (by decide) _) all
  case elseBranch =>
    obtain ⟨is, rfl⟩ := eq_of_takeIf took
    exact .of_all (.cons (by simp [is]) _) rfl
  case doCall =>
    obtain ⟨is, rfl⟩ := eq_of_takeIf took
    obtain ⟨word, more, rfl, isDo⟩ := preceded
    exact ⟨⟨word, more, rfl, is, isDo⟩, rfl⟩
  case returnValue =>
    obtain ⟨is, rfl⟩ := eq_of_takeIf took
    exact .symbol is (by decide) _
  case calleeName qualifier =>
    obtain ⟨is, rfl⟩ := eq_of_takeIf took
    obtain ⟨dot, more, rfl, isDot⟩ := preceded
    exact ⟨⟨dot, qualifier, more, rfl, is, isDot, rfl⟩, rfl⟩
  case openCall call =>
    obtain ⟨is, rfl⟩ := eq_of_takeIf took
    obtain ⟨dot, qualifier, more, rfl, isName, isDot, isQualifier⟩ := preceded
    refine ⟨⟨token, dot :: qualifier :: more, rfl, isName, is, fun before => ?_⟩, rfl⟩
    rw [qualifier?, List.reverse_reverse, isQualifier]
    simp [isDot]
  case arguments call =>
    obtain ⟨is, rfl⟩ := eq_of_takeIf took
    exact .symbol is (by decide) _
  case moreArguments call count =>
    split at took <;> rename_i is <;> simp only [Option.some.injEq, reduceCtorEq] at took <;>
      subst took
    · exact .of_all (.symbol is (by decide) _) rfl
    · exact .symbol is (by decide) _
  all_goals exact absurd preceded.2 Bool.false_ne_true

/-- Doing without a token leads from goals in the middle of statements to others. -/
theorem stacked_pass (preceded : goal.PrecededBy known inside)
    (moves : goal.otherwise line = .ok step) : Stacked known inside step.goals := by
  cases goal <;> simp only [otherwise, Except.ok.injEq, reduceCtorEq] at moves <;> subst moves
  case nameTail name =>
    obtain ⟨more, rfl, isName, -⟩ := preceded
    exact .cons (by simp [isName]) _
  case returnValue => exact .of_all preceded rfl
  case arguments call =>
    obtain ⟨opening, more, rfl, -, isOpening, -⟩ := preceded
    exact .of_all (.symbol isOpening (by decide) _) rfl
  case perform | nest | statements | elseBranch | operators => exact preceded.1
  all_goals exact absurd preceded.2 Bool.false_ne_true

/-- What a goal in the middle of statements asks for, between the tokens taken and the rest. What
may be refused stands behind the tokens that it is refused for. -/
inductive Asks (known : String → Bool) (inside rest : List Token) (line : Nat) :
    Goal → List Action → Prop
  | safe {goal : Goal} {actions : List Action} (safe : actions.all Action.isSafe = true) :
      Asks known inside rest line goal actions
  | resolve {word name : Token} {more behind : List Token} (isLet : word.kind = .keyword .kwLet)
      (isName : name.kind = .identifier) (before : inside = word :: more)
      (next : rest = name :: behind) : Asks known inside rest line .letName [.resolve name]
  | target {goal : Goal} {name : Token} (isKnown : known name.lexeme = true) :
      Asks known inside rest line goal [.load name]
  | read {name : Token} {more : List Token} (isName : name.kind = .identifier)
      (calm : Calm more) (before : inside = name :: more)
      (alone : ∀ next ∈ rest.head?, next.kind ∉ [.symbol .leftParen, .symbol .dot]) :
      Asks known inside rest line (.nameTail name) [.load name]
  | store {goal : Goal} {name : Token} (isKnown : known name.lexeme = true) :
      Asks known inside rest line goal [.store name]
  | integer {constant : Token} {behind : List Token} (is : constant.kind = .integer)
      (next : rest = constant :: behind) :
      Asks known inside rest line .term [.integer constant]
  | string {constant : Token} {behind : List Token} (is : constant.kind = .string)
      (next : rest = constant :: behind) : Asks known inside rest line .term [.string constant]
  | nest (calm : Calm inside) : Asks known inside rest line .nest [.nest line]
  | argument (call : Call) (count : Nat) :
      Asks known inside rest line (.perform [.argument call count]) [.argument call count]

theorem asks_takeTerm? {behind : List Token} (took : takeTerm? token = some step) :
    Asks known inside (token :: behind) line .term step.actions := by
  unfold takeTerm? at took
  split at took <;> rename_i is <;> simp only [Option.some.injEq, reduceCtorEq] at took <;>
    subst took
  · exact .integer is rfl
  · exact .string is rfl
  all_goals exact .safe rfl

theorem safe_takeCall? {name : Token} (took : takeCall? token name = some step) :
    step.actions.all Action.isSafe = true := by
  unfold takeCall? at took
  split at took <;> simp only [Option.some.injEq, reduceCtorEq] at took <;> subst took <;> rfl

theorem safe_takeStatement? (took : takeStatement? numbering token = some step) :
    step.actions.all Action.isSafe = true := by
  unfold takeStatement? at took
  split at took <;> simp only [Option.some.injEq, reduceCtorEq] at took <;> subst took <;> rfl

theorem asks_take {behind : List Token} (preceded : goal.PrecededBy known inside)
    (took : goal.take? numbering token = some step) :
    Asks known inside (token :: behind) line goal step.actions := by
  cases goal <;> simp only [take?, reduceCtorEq] at took
  case statements => exact .safe (safe_takeStatement? took)
  case term => exact asks_takeTerm? took
  case nameTail name =>
    obtain ⟨more, rfl, isName, calm⟩ := preceded
    split at took
    · rename_i is
      obtain rfl := Option.some.inj took
      refine .read isName calm rfl fun next isNext => ?_
      obtain rfl := Option.some.inj isNext
      simp [is]
    · exact .safe (safe_takeCall? took)
  case callTail name => exact .safe (safe_takeCall? took)
  case operators =>
    split at took
    · obtain ⟨instruction, -, rfl⟩ := Option.map_eq_some_iff.1 took
      exact .safe rfl
    · cases took
  case letName =>
    obtain ⟨is, rfl⟩ := eq_of_takeIf took
    obtain ⟨word, more, before, isLet⟩ := preceded
    exact .resolve isLet is before rfl
  case letTarget name =>
    split at took <;> simp only [Option.some.injEq, reduceCtorEq] at took <;> subst took
    · exact .target preceded
    · exact .safe rfl
  case moreArguments call count =>
    split at took <;> simp only [Option.some.injEq, reduceCtorEq] at took <;> subst took
    · exact .safe rfl
    · exact .safe rfl
  case token | elseBranch | doCall | returnValue | calleeName | openCall | arguments =>
    obtain ⟨-, rfl⟩ := eq_of_takeIf took
    exact .safe rfl
  all_goals exact absurd preceded.2 Bool.false_ne_true

/-- Nothing stands behind a name that begins no call and no element. -/
theorem not_mem_of_nameTail {name : Token} (stays : (nameTail name).take? numbering token = none) :
    token.kind ∉ [.symbol .leftParen, .symbol .dot] := by
  intro member
  simp only [List.mem_cons, List.not_mem_nil, or_false] at member
  rcases member with is | is <;> simp [take?, takeCall?, is] at stays

theorem asks_perform {rest : List Token} {actions : List Action}
    (waits : (perform actions).waits known = true) :
    Asks known inside rest line (perform actions) actions := by
  unfold Goal.waits at waits
  split at waits <;> rename_i same
  any_goals cases same
  · exact .store waits
  · exact .argument ..
  · exact .safe waits
  · cases waits

theorem asks_pass {rest : List Token} (preceded : goal.PrecededBy known inside)
    (stays : ∀ token ∈ rest.head?, goal.take? numbering token = none)
    (moves : goal.otherwise line = .ok step) : Asks known inside rest line goal step.actions := by
  cases goal <;> simp only [otherwise, Except.ok.injEq, reduceCtorEq] at moves <;> subst moves
  case nameTail name =>
    obtain ⟨more, rfl, isName, calm⟩ := preceded
    exact .read isName calm rfl fun next isNext => not_mem_of_nameTail (stays next isNext)
  case nest => exact .nest preceded.1
  case perform actions => exact asks_perform preceded.2
  case returnValue | statements | elseBranch | operators | arguments => exact .safe rfl
  all_goals exact absurd preceded.2 Bool.false_ne_true

end Goal

namespace Recognizer

variable {taken ahead : List Token} {start : Numbering} {here : Recognizer} {actions : List Action}

/-- From the beginning of statements on each goal comes behind tokens that lead to it. -/
theorem Reaches.stacked (known : String → Bool)
    (reach : Reaches ⟨[.statements], ⟨taken, ahead⟩, start⟩ actions here)
    (resolved : ∀ name, .resolve name ∈ actions → known name.lexeme = true) :
    ∃ inside, here.stream.taken = inside ++ taken ∧
      (inside = [] ∧ (here.goals = [.statements] ∨ here.goals = []) ∨
        Goal.Stacked known inside here.goals) := by
  induction reach using last_induction with
  | refl => exact ⟨[], rfl, .inl ⟨rfl, .inl rfl⟩⟩
  | @step middle next actions others reach moved ih =>
    obtain ⟨inside, isTaken, holds⟩ := ih fun name member =>
      resolved name (List.mem_append_left _ member)
    obtain ⟨_ | ⟨goal, goals⟩, ⟨before, rest⟩, numbering⟩ := middle
    · simp [Recognizer.step] at moved
    obtain rfl : before = inside ++ taken := isTaken
    obtain ⟨step, rfl, ⟨token, behind, rfl, took, rfl⟩ | ⟨stays, moves, rfl⟩⟩ := step_cons moved
    · refine ⟨token :: inside, rfl, .inr ?_⟩
      obtain ⟨-, isStart | isEnd⟩ | ⟨preceded, all⟩ := holds
      · cases isStart
        rw [List.append_nil]
        exact Goal.stacked_takeStatement? took
      · cases isEnd
      · exact (Goal.stacked_take preceded took fun name member =>
          resolved name (List.mem_append_right _ member)).append all
    · refine ⟨inside, rfl, ?_⟩
      obtain ⟨rfl, isStart | isEnd⟩ | ⟨preceded, all⟩ := holds
      · cases isStart
        cases moves
        exact .inl ⟨rfl, .inr rfl⟩
      · cases isEnd
      · exact .inr ((Goal.stacked_pass preceded moves).append all)

/-- What a step in the middle of statements asks for. -/
theorem Reaches.asks {inside rest : List Token} {goal : Goal} {goals : List Goal}
    {numbering : Numbering} {others : List Action} {next : Recognizer} (known : String → Bool)
    (reach : Reaches ⟨[.statements], ⟨taken, ahead⟩, start⟩ actions
      ⟨goal :: goals, ⟨inside ++ taken, rest⟩, numbering⟩)
    (resolved : ∀ name, .resolve name ∈ actions → known name.lexeme = true)
    (moved : (⟨goal :: goals, ⟨inside ++ taken, rest⟩, numbering⟩ : Recognizer).step =
      .ok (others, next)) :
    Goal.Asks known inside rest (TokenStream.line ⟨inside ++ taken, rest⟩) goal others := by
  obtain ⟨front, isTaken, holds⟩ := reach.stacked known resolved
  obtain rfl : inside = front := List.append_cancel_right isTaken
  obtain ⟨step, rfl, ⟨token, behind, rfl, took, rfl⟩ | ⟨stays, moves, rfl⟩⟩ := step_cons moved
  · obtain ⟨-, isStart | isEnd⟩ | ⟨preceded, -⟩ := holds
    · cases isStart
      exact .safe (Goal.safe_takeStatement? took)
    · cases isEnd
    · exact Goal.asks_take preceded took
  · obtain ⟨-, isStart | isEnd⟩ | ⟨preceded, -⟩ := holds
    · cases isStart
      cases moves
      exact .safe rfl
    · cases isEnd
    · exact Goal.asks_pass preceded stays moves

end Recognizer

theorem Goal.Asks.isInner {known : String → Bool} {inside rest : List Token} {line : Nat}
    {goal : Goal} {actions : List Action} (asks : goal.Asks known inside rest line actions) :
    actions.all Action.isInner = true := by
  cases asks with
  | safe safe => exact List.all_eq_true.2 fun action member =>
      Action.isInner_of_isSafe (List.all_eq_true.1 safe action member)
  | _ => rfl

/-- A name that has to be a variable and is not refused is one. -/
theorem Goal.Asks.resolved {known : String → Bool} {inside rest : List Token} {line limit : Nat}
    {goal : Goal} {actions : List Action} {generator later : Generator}
    (asks : goal.Asks known inside rest line actions)
    (declared : ∀ name, generator.environment.declared name = known name)
    (done : (generator.performAll limit actions).2 = .ok later) :
    ∀ name, .resolve name ∈ actions → known name.lexeme = true := by
  intro name member
  cases asks with
  | safe safe => cases List.all_eq_true.1 safe _ member
  | resolve _ _ _ _ =>
    obtain rfl := Action.resolve.inj (List.mem_singleton.1 member)
    have acts : (generator.perform limit (.resolve name)).2 = _ :=
      generator.result_withVariable name fun _ => []
    rw [Generator.result_singleton, acts, declared] at done
    by_contra unknown
    rw [if_neg unknown] at done
    cases done
  | _ => simp at member

end Jack
