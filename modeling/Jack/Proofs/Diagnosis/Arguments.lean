import Jack.Proofs.Diagnosis.Goals

namespace Jack

namespace Goal

variable {goal : Goal} {goals : List Goal} {token : Token} {numbering : Numbering} {step : Step}
  {line : Nat}

/-- The call whose arguments a goal counts, and how many there are by then. -/
def counted? : Goal → Option (Call × Nat)
  | .perform [.argument call count] => some (call, count)
  | .moreArguments call count => some (call, count)
  | _ => none

/-- An argument, the count with it, and the arguments behind it. -/
def argument (call : Call) (count : Nat) : List Goal :=
  expression ++ [.perform [.argument call count], .moreArguments call count]

/-- Only a comma between arguments leads to another one. -/
theorem counted_take (took : goal.take? numbering token = some step) :
    step.goals.filterMap counted? = [] ∨
      ∃ call count, goal = .moreArguments call count ∧ token.kind = .symbol .comma ∧
        step.goals = argument call (count + 1) := by
  cases goal <;>
    simp only [take?, takeStatement?, takeTerm?, takeCall?, reduceCtorEq] at took
  case moreArguments call count =>
    split at took <;> rename_i is <;> simp only [Option.some.injEq, reduceCtorEq] at took <;>
      subst took
    · exact .inr ⟨call, count, rfl, is, rfl⟩
    · exact .inl rfl
  case operators =>
    split at took
    · obtain ⟨instruction, -, rfl⟩ := Option.map_eq_some_iff.1 took
      exact .inl rfl
    · cases took
  all_goals
    repeat' split at took
  all_goals
    simp only [Option.some.injEq, reduceCtorEq] at took
  all_goals
    subst took
    exact .inl rfl

/-- Without a token only the first argument of a call is asked for. -/
theorem counted_pass (moves : goal.otherwise line = .ok step) :
    step.goals.filterMap counted? = [] ∨
      ∃ call, goal = .arguments call ∧ step.goals = argument call 1 := by
  cases goal <;> simp only [otherwise, Except.ok.injEq, reduceCtorEq] at moves <;> subst moves
  case arguments call => exact .inr ⟨call, rfl, rfl⟩
  all_goals exact .inl rfl

theorem not_counted (none : goals.filterMap counted? = []) (member : goal ∈ goals)
    (call : Call) (count : Nat) : goal.counted? ≠ some (call, count) := by
  rw [List.filterMap_eq_nil_iff.1 none goal member]
  exact (Option.some_ne_none _).symm

/-- What stands in front of a goal that counts an argument is the argument itself. -/
theorem counted_argument {call called : Call} {count counts : Nat} {added rest : List Goal}
    (counted : goal.counted? = some (call, count))
    (splits : argument called counts = added ++ goal :: rest) :
    called = call ∧ counts = count ∧ ∃ actions : List Goal,
      added = expression ++ actions ∧ (actions = [] ∨ ∃ asked, actions = [.perform asked]) := by
  have uncounted : goal ∉ expression := by
    intro member
    exact not_counted (rfl : expression.filterMap counted? = []) member call count counted
  obtain ⟨more, rfl, behind⟩ | ⟨own, whole, behind⟩ := List.append_eq_append_iff.1 splits
  · rcases more with _ | ⟨_, _ | ⟨_, more⟩⟩
    · cases behind
      cases counted
      exact ⟨rfl, rfl, [], rfl, .inl rfl⟩
    · cases behind
      cases counted
      exact ⟨rfl, rfl, _, rfl, .inr ⟨_, rfl⟩⟩
    · simp at behind
  · rcases own with _ | ⟨_, own⟩
    · obtain ⟨rfl, -⟩ := List.cons.inj behind
      cases counted
      exact ⟨rfl, rfl, [], by simpa using whole.symm, .inl rfl⟩
    · obtain ⟨rfl, -⟩ := List.cons.inj behind
      exact absurd (whole ▸ List.mem_append_right added List.mem_cons_self) uncounted

end Goal

/-- One argument more, behind all others. -/
def Arguments.push (last : Expression) : Arguments → Arguments
  | .done => .more last .done
  | .more first rest => .more first (rest.push last)

theorem Arguments.length_push (last : Expression) (arguments : Arguments) :
    (arguments.push last).length = arguments.length + 1 := by
  induction arguments using push.induct with
  | case1 => rfl
  | case2 first rest ih => exact congrArg (· + 1) ih

theorem Arguments.yieldMore_push (last : Expression) (arguments : Arguments) :
    (arguments.push last).yieldMore =
      arguments.yieldMore ++ .symbol .comma :: last.yield := by
  induction arguments using push.induct with
  | case1 => simp [push, yieldMore]
  | case2 first rest ih => simp [push, yieldMore, ih]

theorem Arguments.yield_push (last : Expression) {arguments : Arguments}
    (some : 0 < arguments.length) :
    (arguments.push last).yield = arguments.yield ++ .symbol .comma :: last.yield := by
  cases arguments with
  | done => cases some
  | more first rest => simp [push, yield, rest.yieldMore_push last]

namespace Recognizer

variable {taken ahead : List Token} {start : Numbering} {here : Recognizer} {actions : List Action}

/-- An argument that was met is an expression. -/
theorem Reaches.expression {stream last : TokenStream} {numbering later : Numbering}
    {waiting : List Goal} (met : Reaches ⟨Goal.expression ++ waiting, stream, numbering⟩ actions
      ⟨[], last, later⟩) (counts : waiting = [] ∨ ∃ asked, waiting = [.perform asked]) :
    ∃ (listed : List Token) (expression : Expression), last.taken = listed.reverse ++ stream.taken ∧
      listed.map Token.terminal = expression.yield := by
  obtain ⟨listed, whole, isTaken⟩ := met.taken
  obtain ⟨tokens, rest, means⟩ := met.means rfl
  obtain rfl : listed = tokens := List.append_cancel_right (whole.symm.trans rest)
  obtain ⟨front, back, rfl, more, expression, isFront, -⟩ := means.expression
  have nothing : back = [] := by
    rcases counts with rfl | ⟨asked, rfl⟩
    · exact more
    · exact more.perform
  subst nothing
  rw [List.append_nil] at isTaken
  exact ⟨front, expression, isTaken, isFront⟩

/-- Where an argument is counted its expression has been taken: behind a comma where the arguments
before it were counted, or where the arguments of the call begin. -/
theorem Reaches.counted {goal : Goal} {goals : List Goal} {call : Call} {count : Nat}
    {stream : TokenStream} (reach : Reaches ⟨[.statements], stream, start⟩ actions here)
    (asks : here.goals = goal :: goals) (counted : goal.counted? = some (call, count)) :
    ∃ (first : List Action) (middle : Recognizer) (tail : List Goal) (latest : List Token)
      (last : Expression), Reaches ⟨[.statements], stream, start⟩ first middle ∧
      latest.map Token.terminal = last.yield ∧
      ((∃ comma counts, middle.goals = .moreArguments call counts :: tail ∧
          comma.kind = .symbol .comma ∧ count = counts + 1 ∧
          here.stream.taken = latest.reverse ++ comma :: middle.stream.taken) ∨
        middle.goals = .arguments call :: tail ∧ count = 1 ∧
          here.stream.taken = latest.reverse ++ middle.stream.taken) := by
  have new : goal ∉ [Goal.statements] := by
    intro member
    obtain rfl := List.mem_singleton.1 member
    cases counted
  have waits : here.goals = [] ++ goal :: goals := asks
  obtain @⟨first, others, since, middle, next, asked, tail, added, rest, begun, isAsked, moved,
    leaves, met⟩ := reach.askedFor waits new
  obtain ⟨_, ⟨before, left⟩, numbering⟩ := middle
  obtain rfl := isAsked
  have splits {own : List Goal} (whole : own ++ tail = added ++ goal :: (rest ++ tail)) :
      own = added ++ goal :: rest :=
    List.append_cancel_right (whole.trans (by simp))
  obtain ⟨step, rfl, ⟨token, behind, rfl, took, rfl⟩ | ⟨-, moves, rfl⟩⟩ := step_cons moved
  · have splits := splits leaves
    obtain none | ⟨called, counts, rfl, isComma, goals⟩ := Goal.counted_take took
    · exact absurd counted (Goal.not_counted none (by simp [splits]) call count)
    · rw [goals] at splits
      obtain ⟨rfl, rfl, waiting, rfl, isWaiting⟩ := Goal.counted_argument counted splits
      obtain ⟨latest, last, isTaken, spelt⟩ := met.expression isWaiting
      exact ⟨first, _, tail, latest, last, begun, spelt,
        .inl ⟨token, counts, rfl, isComma, rfl, isTaken⟩⟩
  · have splits := splits leaves
    obtain none | ⟨called, rfl, goals⟩ := Goal.counted_pass moves
    · exact absurd counted (Goal.not_counted none (by simp [splits]) call count)
    · rw [goals] at splits
      obtain ⟨rfl, rfl, waiting, rfl, isWaiting⟩ := Goal.counted_argument counted splits
      obtain ⟨latest, last, isTaken, spelt⟩ := met.expression isWaiting
      exact ⟨first, _, tail, latest, last, begun, spelt, .inr ⟨rfl, rfl, isTaken⟩⟩

/-- The arguments that were taken are as many as were counted, and they stand in parentheses behind
the name that is called. -/
theorem Reaches.arguments {goal : Goal} {goals : List Goal} {call : Call} {count : Nat}
    (reach : Reaches ⟨[.statements], ⟨taken, ahead⟩, start⟩ actions here)
    (asks : here.goals = goal :: goals) (counted : goal.counted? = some (call, count)) :
    ∃ (listed more : List Token) (opening : Token) (arguments : Arguments),
      here.stream.taken = listed.reverse ++ opening :: call.callee :: (more ++ taken) ∧
      listed.map Token.terminal = arguments.yield ∧ arguments.length = count ∧ 0 < count ∧
      opening.kind = .symbol .leftParen ∧ call.callee.kind = .identifier ∧
      qualifier? (more ++ taken).reverse = call.qualifier.map Token.lexeme := by
  -- Each comma leads back to the arguments in front of it, and the first one to the parenthesis.
  induction count using Nat.strongRecOn generalizing goal goals here actions with
  | ind count ih =>
    obtain ⟨first, middle, tail, latest, last, begun, spelt,
      ⟨comma, counts, isMore, isComma, rfl, isTaken⟩ | ⟨isFirst, rfl, isTaken⟩⟩ :=
      reach.counted asks counted
    · obtain ⟨listed, more, opening, arguments, isListed, isArguments, rfl, some, others⟩ :=
        ih counts (Nat.lt_succ_self counts) begun isMore rfl
      refine ⟨listed ++ comma :: latest, more, opening, arguments.push last, ?_, ?_,
        arguments.length_push last, Nat.succ_pos _, others⟩
      · rw [isTaken, isListed]
        simp
      · rw [Arguments.yield_push last some, List.map_append, isArguments, List.map_cons,
          Token.terminal_of_symbol isComma, spelt]
    · obtain ⟨_, ⟨before, left⟩, numbering⟩ := middle
      obtain rfl := isFirst
      obtain ⟨inside, rfl, ⟨-, isStart | isEnd⟩ | ⟨preceded, -⟩⟩ :=
        begun.stacked (fun _ => true) fun _ _ => rfl
      · cases isStart
      · cases isEnd
      · obtain ⟨opening, more, rfl, isName, isOpening, qualifies⟩ := preceded
        refine ⟨latest, more, opening, .more last .done, isTaken, ?_, rfl, Nat.one_pos, isOpening,
          isName, qualifies taken⟩
        simp [spelt, Arguments.yield, Arguments.yieldMore]

end Recognizer

end Jack
