import Jack.Proofs.Checked.Cursor
import Jack.Proofs.Recognition

namespace Jack

/-- Whether a symbol is an operator between two terms. -/
def Symbol.isOperator : Symbol → Bool
  | plus | minus | star | slash | amp | pipe | less | greater | eq => true
  | _ => false

/-- What an operator is written as. Other symbols do not come here. -/
def Symbol.operate (mark : Symbol) : Checked Instruction :=
  match mark.binaryInstruction? with
  | some instruction => .ok instruction
  | none => .error .unreachable

/-- Counts the statements of a subroutine in words of 32 bits. -/
def Numbering.afterChecked (numbering : Numbering) (token : Token) : Checked Numbering :=
  match token.kind with
  | .keyword .kwIf => do
    let ifs ← Checked.succ numbering.ifs
    .ok { numbering with ifs }
  | .keyword .kwWhile => do
    let whiles ← Checked.succ numbering.whiles
    .ok { numbering with whiles }
  | _ => .ok (numbering.after token)

namespace Goal

/-- What a goal does with a token, where operators are told from other symbols first. -/
def takeChecked? (numbering : Numbering) (token : Token) (goal : Goal) : Checked (Option Step) :=
  match goal, token.kind with
  | .operators, .symbol mark =>
    if mark.isOperator then do
      let instruction ← mark.operate
      .ok (some ⟨[], operand ++ [.perform [.emit instruction], .operators]⟩)
    else .ok none
  | goal, _ => .ok (goal.take? numbering token)

/-- Leaves the levels that are open in front of goals, from the inside to the outside. The end of a
level that has not been asked for yet is passed over. -/
def leave (waiting depth : Nat) : List Goal → Checked Unit
  | [] => Checked.assert (waiting == 0 && depth == 0)
  | .nest :: goals => leave (waiting + 1) depth goals
  | .perform [.unnest] :: goals =>
    match waiting with
    | waiting + 1 => leave waiting depth goals
    | 0 => do
      let depth ← Checked.pred depth
      leave 0 depth goals
  | _ :: goals => leave waiting depth goals

end Goal

namespace Recognizer

def takeChecked? (goal : Goal) (goals : List Goal) (stream : TokenStream) (numbering : Numbering) :
    Checked (Option (List Action × Recognizer)) :=
  match stream.next? with
  | none => .ok none
  | some (token, stream) => do
    match ← goal.takeChecked? numbering token with
    | none => .ok none
    | some step =>
      let numbering ← numbering.afterChecked token
      .ok (some (step.actions, ⟨step.goals ++ goals, stream, numbering⟩))

def stepChecked (recognizer : Recognizer) :
    Checked (Except (Option SyntaxError) (List Action × Recognizer)) :=
  let ⟨goals, stream, numbering⟩ := recognizer
  match goals with
  | [] =>
    .ok (.error
      (if stream.atEnd then none else some (stream.unexpected "end of file after class")))
  | goal :: goals => do
    match ← takeChecked? goal goals stream numbering with
    | some moved => .ok (.ok moved)
    | none =>
      match goal.otherwise stream.line with
      | .ok step => .ok (.ok (step.actions, ⟨step.goals ++ goals, stream, numbering⟩))
      | .error expected => .ok (.error (some (stream.unexpected expected)))

end Recognizer

theorem Symbol.isOperator_eq (mark : Symbol) :
    mark.isOperator = mark.binaryInstruction?.isSome := by
  cases mark <;> rfl

theorem Numbering.afterChecked_eq {numbering : Numbering} (ifs : numbering.ifs + 1 < 2 ^ 32)
    (whiles : numbering.whiles + 1 < 2 ^ 32) (token : Token) :
    numbering.afterChecked token = .ok (numbering.after token) := by
  unfold afterChecked
  split
  · rename_i isIf
    rw [Checked.succ_of_lt ifs, after, isIf]
    rfl
  · rename_i isWhile
    rw [Checked.succ_of_lt whiles, after, isWhile]
    rfl
  · rfl

/-- No count goes up by more than one with a token. -/
theorem Numbering.after_le (numbering : Numbering) (token : Token) :
    (numbering.after token).ifs ≤ numbering.ifs + 1 ∧
      (numbering.after token).whiles ≤ numbering.whiles + 1 := by
  unfold after zero
  split <;> simp

namespace Goal

variable {goal : Goal} {goals : List Goal} {token name : Token} {numbering : Numbering}
  {line waiting depth : Nat} {step : Step}

theorem takeChecked?_eq (goal : Goal) (numbering : Numbering) (token : Token) :
    goal.takeChecked? numbering token = .ok (goal.take? numbering token) := by
  unfold takeChecked?
  split
  · rename_i mark isMark
    simp only [take?, isMark, Symbol.isOperator_eq, Symbol.operate]
    cases mark.binaryInstruction? <;> rfl
  · rfl

end Goal

namespace Recognizer

variable {here next : Recognizer} {actions : List Action}

/-- Where the statements of a class can be counted, a step with all operations checked is the
same. -/
theorem stepChecked_eq (ifs : here.numbering.ifs + here.stream.rest.length < 2 ^ 32)
    (whiles : here.numbering.whiles + here.stream.rest.length < 2 ^ 32) :
    here.stepChecked = .ok here.step := by
  obtain ⟨_ | ⟨goal, goals⟩, ⟨taken, rest⟩, numbering⟩ := here
  · rfl
  have takes : takeChecked? goal goals ⟨taken, rest⟩ numbering =
      .ok (take? goal goals ⟨taken, rest⟩ numbering) := by
    cases rest with
    | nil => rfl
    | cons token rest =>
      simp only [List.length_cons] at ifs whiles
      simp only [takeChecked?, take?, TokenStream.next?, Goal.takeChecked?_eq, Checked.ok_bind]
      cases goal.take? numbering token with
      | none => rfl
      | some step =>
        simp only [Numbering.afterChecked_eq (by omega : numbering.ifs + 1 < 2 ^ 32) (by omega)]
        rfl
  simp only [stepChecked, step, takes, Checked.ok_bind]
  cases take? goal goals ⟨taken, rest⟩ numbering with
  | some moved => rfl
  | none => cases goal.otherwise (TokenStream.line ⟨taken, rest⟩) <;> rfl

/-- As many statements as there are tokens can still begin, and not more. -/
theorem counts_step (moved : here.step = .ok (actions, next)) :
    next.numbering.ifs + next.stream.rest.length ≤
        here.numbering.ifs + here.stream.rest.length ∧
      next.numbering.whiles + next.stream.rest.length ≤
        here.numbering.whiles + here.stream.rest.length := by
  obtain ⟨goal, goals, taken, rest, numbering, step, rfl, moves⟩ := step_cases moved
  obtain ⟨token, rfl, -, rfl⟩ | ⟨line, rfl, -, -, rfl⟩ := moves
  · have counts := numbering.after_le token
    simp only [List.length_cons]
    omega
  · exact ⟨Nat.le_refl _, Nat.le_refl _⟩

end Recognizer

/-- Whether an action asks for no level and leaves none. -/
def Action.staysLevel : Action → Bool
  | .nest _ | .unnest => false
  | _ => true

/-- Whether actions are few and stay on their level. -/
def Action.areModest (actions : List Action) : Bool :=
  actions.length ≤ 4 && actions.all staysLevel

namespace Goal

/-- Whether a goal that gives its actions itself leaves a level and does nothing else, or gives
modest actions. -/
def isModest : Goal → Bool
  | .perform [.unnest] => true
  | .perform actions => Action.areModest actions
  | _ => true

/-- A step that stays on its level. All levels that its goals ask for they leave as well. -/
structure Step.Level (step : Step) : Prop where
  actions : Action.areModest step.actions = true
  goals : step.goals.all isModest = true
  leaves : ∀ waiting depth goals,
    leave waiting depth (step.goals ++ goals) = leave waiting depth goals

variable {goal : Goal} {goals : List Goal} {token name : Token} {numbering : Numbering}
  {line waiting depth : Nat} {step : Step}

theorem level_takeCall? (took : takeCall? token name = some step) : step.Level := by
  unfold takeCall? at took
  split at took <;> cases took <;> exact ⟨rfl, rfl, fun _ _ _ => rfl⟩

theorem level_takeStatement? (took : takeStatement? numbering token = some step) : step.Level := by
  unfold takeStatement? at took
  split at took <;> cases took <;> exact ⟨rfl, rfl, fun _ _ _ => rfl⟩

theorem level_takeTerm? (took : takeTerm? token = some step) : step.Level := by
  unfold takeTerm? at took
  split at took <;> cases took <;> exact ⟨rfl, rfl, fun _ _ _ => rfl⟩

theorem level_take? (took : goal.take? numbering token = some step) : step.Level := by
  cases goal with
  | statements => exact level_takeStatement? took
  | term => exact level_takeTerm? took
  | callTail name => exact level_takeCall? took
  | nameTail name =>
    simp only [take?] at took
    split at took
    · cases took
      exact ⟨rfl, rfl, fun _ _ _ => rfl⟩
    · exact level_takeCall? took
  | operators =>
    simp only [take?] at took
    split at took
    · obtain ⟨instruction, -, rfl⟩ := Option.map_eq_some_iff.1 took
      exact ⟨rfl, rfl, fun _ _ _ => rfl⟩
    · cases took
  | _ =>
    simp only [take?] at took
    repeat' split at took
    all_goals
      cases took
    all_goals
      exact ⟨rfl, rfl, fun _ _ _ => rfl⟩

theorem leave_cons (notNest : goal ≠ .nest) (notEnd : goal ≠ .perform [.unnest]) :
    leave waiting depth (goal :: goals) = leave waiting depth goals := by
  rw [leave]
  · exact notNest
  · exact notEnd

/-- A level that goals wait for may as well be open already. -/
theorem leave_of_waiting (leaves : leave (waiting + 1) depth goals = .ok ()) :
    leave waiting (depth + 1) goals = .ok () := by
  induction goals generalizing waiting with
  | nil => cases leaves
  | cons goal goals ih =>
    by_cases isNest : goal = .nest
    · subst isNest
      exact ih leaves
    by_cases isEnd : goal = .perform [.unnest]
    · subst isEnd
      cases waiting with
      | zero => exact leaves
      | succ waiting => exact ih leaves
    rw [leave_cons isNest isEnd] at leaves ⊢
    exact ih leaves

/-- At the end of a level some level is open. -/
theorem exists_of_leave (leaves : leave 0 depth (.perform [.unnest] :: goals) = .ok ()) :
    ∃ outer, depth = outer + 1 ∧ leave 0 outer goals = .ok () := by
  cases depth with
  | zero => cases leaves
  | succ outer => exact ⟨outer, rfl, leaves⟩

example : leave 0 0 [.perform [.unnest]] = .error .underflow := rfl

/-- Without a token a goal goes a level deeper or back, or it stays where it is. -/
theorem otherwise_cases (modest : goal.isModest = true) (moves : goal.otherwise line = .ok step) :
    goal = .nest ∧ step = ⟨[.nest line], []⟩ ∨
      goal = .perform [.unnest] ∧ step = ⟨[.unnest], []⟩ ∨
      goal ≠ .nest ∧ goal ≠ .perform [.unnest] ∧ step.Level := by
  cases goal with
  | nest =>
    cases moves
    exact .inl ⟨rfl, rfl⟩
  | perform actions =>
    cases moves
    by_cases isEnd : actions = [.unnest]
    · subst isEnd
      exact .inr (.inl ⟨rfl, rfl⟩)
    · have actionsModest : Action.areModest actions = true := by
        rw [isModest] at modest
        · exact modest
        · exact isEnd
      exact .inr (.inr ⟨nofun, by simpa using isEnd, actionsModest, rfl, fun _ _ _ => rfl⟩)
  | _ => cases moves <;> exact .inr (.inr ⟨nofun, nofun, rfl, rfl, fun _ _ _ => rfl⟩)

end Goal

namespace Recognizer

/-- All open levels can be left, and so can those that are still to be asked for. -/
structure Paired (here : Recognizer) (depth : Nat) : Prop where
  modest : here.goals.all Goal.isModest = true
  leaves : Goal.leave 0 depth here.goals = .ok ()

variable {here next : Recognizer} {actions : List Action} {depth : Nat}

theorem paired_ofTokens (tokens : List Token) : (ofTokens tokens).Paired 0 :=
  ⟨rfl, rfl⟩

/-- Goals on their own level take the place of one that is on it too. -/
theorem Paired.replace {goal : Goal} {goals : List Goal} {step : Goal.Step}
    {stream later : TokenStream} {numbering counted : Numbering}
    (paired : (⟨goal :: goals, stream, numbering⟩ : Recognizer).Paired depth)
    (notNest : goal ≠ .nest) (notEnd : goal ≠ .perform [.unnest]) (level : step.Level) :
    (⟨step.goals ++ goals, later, counted⟩ : Recognizer).Paired depth := by
  obtain ⟨-, others⟩ := Bool.and_eq_true_iff.1 paired.modest
  refine ⟨?_, ?_⟩
  · rw [List.all_append, level.goals, others]
    rfl
  · rw [level.leaves, ← Goal.leave_cons notNest notEnd]
    exact paired.leaves

/-- A step stays on its level, goes one deeper or comes back from one that is open. -/
theorem Paired.step (paired : here.Paired depth) (moved : here.step = .ok (actions, next)) :
    Action.areModest actions = true ∧ next.Paired depth ∨
      (∃ line, actions = [.nest line]) ∧ next.Paired (depth + 1) ∨
      actions = [.unnest] ∧ ∃ outer, depth = outer + 1 ∧ next.Paired outer := by
  obtain ⟨goal, goals, taken, rest, numbering, step, rfl, moves⟩ := step_cases moved
  obtain ⟨token, rfl, took, rfl⟩ | ⟨line, rfl, -, passed, rfl⟩ := moves
  · have level := Goal.level_take? took
    have notNest : goal ≠ .nest := by
      rintro rfl
      cases took
    have notEnd : goal ≠ .perform [.unnest] := by
      rintro rfl
      cases took
    exact .inl ⟨level.actions, paired.replace notNest notEnd level⟩
  · obtain ⟨own, others⟩ := Bool.and_eq_true_iff.1 paired.modest
    obtain ⟨rfl, rfl⟩ | ⟨rfl, rfl⟩ | ⟨notNest, notEnd, level⟩ := Goal.otherwise_cases own passed
    · exact .inr (.inl ⟨⟨line, rfl⟩, others, Goal.leave_of_waiting paired.leaves⟩)
    · obtain ⟨outer, isOuter, leaves⟩ := Goal.exists_of_leave paired.leaves
      exact .inr (.inr ⟨rfl, outer, isOuter, others, leaves⟩)
    · exact .inl ⟨level.actions, paired.replace notNest notEnd level⟩

end Recognizer

end Jack
