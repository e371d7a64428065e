import Jack.Grammar.Goal

namespace Jack

namespace Goal

/-- How many goals can come out of one before a token is taken. -/
def weight : Goal → Nat
  | .returnValue => 7
  | .arguments _ => 7
  | _ => 1

def totalWeight : List Goal → Nat
  | [] => 0
  | goal :: goals => goal.weight + totalWeight goals

theorem totalWeight_cons (goal : Goal) (goals : List Goal) :
    totalWeight (goal :: goals) = goal.weight + totalWeight goals :=
  rfl

theorem totalWeight_append (first last : List Goal) :
    totalWeight (first ++ last) = totalWeight first + totalWeight last := by
  induction first with
  | nil => exact (Nat.zero_add _).symm
  | cons goal goals ih => rw [List.cons_append, totalWeight, totalWeight, ih, Nat.add_assoc]

/-- More than the weight of the goals that taking a token leaves behind. -/
def takeWeight : Nat := 32

theorem totalWeight_ifStatement (number : Nat) : totalWeight (ifStatement number) = 15 := rfl

theorem totalWeight_whileStatement (number : Nat) :
    totalWeight (whileStatement number) = 13 := rfl

theorem totalWeight_takeCall? {token name : Token} {step : Step}
    (took : takeCall? token name = some step) : totalWeight step.goals ≤ 7 := by
  unfold takeCall? at took
  split at took <;> simp only [Option.some.injEq, reduceCtorEq] at took <;> subst took <;>
    simp [totalWeight, weight]

theorem totalWeight_takeStatement? {numbering : Numbering} {token : Token} {step : Step}
    (took : takeStatement? numbering token = some step) : totalWeight step.goals ≤ 16 := by
  unfold takeStatement? at took
  split at took <;> simp only [Option.some.injEq, reduceCtorEq] at took <;> subst took <;>
    simp [totalWeight_append, totalWeight_ifStatement, totalWeight_whileStatement] <;>
    simp [totalWeight, weight, symbol]

theorem totalWeight_takeTerm? {token : Token} {step : Step}
    (took : takeTerm? token = some step) : totalWeight step.goals ≤ 5 := by
  unfold takeTerm? at took
  split at took <;> simp only [Option.some.injEq, reduceCtorEq] at took <;> subst took <;>
    simp [totalWeight, weight, symbol, expression, operand]

theorem totalWeight_take? {numbering : Numbering} {token : Token} {goal : Goal} {step : Step}
    (took : goal.take? numbering token = some step) : totalWeight step.goals < takeWeight := by
  unfold takeWeight
  cases goal <;> simp only [take?] at took
  case statements => have := totalWeight_takeStatement? took; omega
  case term => have := totalWeight_takeTerm? took; omega
  case callTail name => have := totalWeight_takeCall? took; omega
  case nameTail name =>
    split at took
    · simp only [Option.some.injEq] at took
      subst took
      simp [totalWeight, weight, symbol, element, expression]
    · have := totalWeight_takeCall? took
      omega
  case operators =>
    split at took
    · obtain ⟨instruction, -, rfl⟩ := Option.map_eq_some_iff.1 took
      simp [totalWeight, weight, operand]
    · simp at took
  all_goals
    repeat' split at took
  all_goals
    simp only [Option.some.injEq, reduceCtorEq] at took
  all_goals
    subst took
    simp [totalWeight, weight, symbol, expression, block, elementAssignment]

theorem totalWeight_otherwise {line : Nat} {goal : Goal} {step : Step}
    (moved : goal.otherwise line = .ok step) : totalWeight step.goals < goal.weight := by
  cases goal <;> simp only [otherwise, Except.ok.injEq, reduceCtorEq] at moved <;> subst moved <;>
    simp [totalWeight, weight, symbol, expression]

end Goal

namespace TokenStream

/-- The line of the next token, or of the last one when all are taken. -/
def line (stream : TokenStream) : Nat :=
  match stream.peek?, stream.previous? with
  | some token, _ => token.line
  | none, some last => last.line
  | none, none => 1

theorem rest_of_next? {stream later : TokenStream} {token : Token}
    (next : stream.next? = some (token, later)) : stream.rest = token :: later.rest := by
  unfold next? at next
  split at next
  · simp at next
  · simp only [Option.some.injEq, Prod.mk.injEq] at next
    obtain ⟨rfl, rfl⟩ := next
    assumption

end TokenStream

/-- The goals that are left, the tokens that are left and the numbers for the next statements. -/
structure Recognizer where
  goals : List Goal
  stream : TokenStream
  numbering : Numbering

namespace Recognizer

def ofTokens (tokens : List Token) : Recognizer :=
  ⟨Goal.wholeClass, .ofTokens tokens, .zero⟩

/-- The first goal takes the next token, if it can. -/
def take? (goal : Goal) (goals : List Goal) (stream : TokenStream) (numbering : Numbering) :
    Option (List Action × Recognizer) :=
  match stream.next? with
  | none => none
  | some (token, stream) =>
    (goal.take? numbering token).map fun step =>
      (step.actions, ⟨step.goals ++ goals, stream, numbering.after token⟩)

/-- One step. Recognition ends well when neither a goal nor a token is left. -/
def step (recognizer : Recognizer) : Except (Option SyntaxError) (List Action × Recognizer) :=
  let ⟨goals, stream, numbering⟩ := recognizer
  match goals with
  | [] =>
    .error (if stream.atEnd then none else some (stream.unexpected "end of file after class"))
  | goal :: goals =>
    match take? goal goals stream numbering with
    | some moved => .ok moved
    | none =>
      match goal.otherwise stream.line with
      | .ok step => .ok (step.actions, ⟨step.goals ++ goals, stream, numbering⟩)
      | .error expected => .error (some (stream.unexpected expected))

/-- Each step takes a token or leaves lighter goals. -/
def measure (recognizer : Recognizer) : Nat :=
  Goal.takeWeight * recognizer.stream.rest.length + Goal.totalWeight recognizer.goals

theorem measure_step {recognizer later : Recognizer} {actions : List Action}
    (moved : recognizer.step = .ok (actions, later)) : later.measure < recognizer.measure := by
  obtain ⟨goals, stream, numbering⟩ := recognizer
  cases goals with
  | nil => simp [step] at moved
  | cons goal goals =>
    simp only [step] at moved
    split at moved
    · rename_i taken
      simp only [Except.ok.injEq] at moved
      subst moved
      unfold take? at taken
      split at taken
      · simp at taken
      · rename_i token stream' next
        obtain ⟨step, took, same⟩ := Option.map_eq_some_iff.1 taken
        simp only [Prod.mk.injEq] at same
        obtain ⟨-, rfl⟩ := same
        have light := Goal.totalWeight_take? took
        simp only [measure, TokenStream.rest_of_next? next, List.length_cons,
          Goal.totalWeight_append, Goal.totalWeight_cons, Goal.takeWeight] at light ⊢
        omega
    · split at moved
      · rename_i step other
        simp only [Except.ok.injEq, Prod.mk.injEq] at moved
        obtain ⟨-, rfl⟩ := moved
        have light := Goal.totalWeight_otherwise other
        simp only [measure, Goal.totalWeight_append, Goal.totalWeight_cons]
        omega
      · simp at moved

/-- All actions in order, behind those already found, and the error that ended recognition. -/
def runOnto (found : Array Action) (recognizer : Recognizer) : Array Action × Option SyntaxError :=
  match _moved : recognizer.step with
  | .ok (actions, later) => runOnto (found ++ actions) later
  | .error error => (found, error)
termination_by recognizer.measure
decreasing_by exact measure_step _moved

def run (recognizer : Recognizer) : List Action × Option SyntaxError :=
  (recognizer.runOnto #[]).map Array.toList id

theorem runOnto_eq (found : Array Action) (recognizer : Recognizer) :
    recognizer.runOnto found = (found ++ recognizer.run.1, recognizer.run.2) := by
  induction hn : recognizer.measure using Nat.strongRecOn generalizing found recognizer with
  | ind n ih =>
    rw [run, runOnto, runOnto]
    split
    · rename_i actions later moved
      have lighter := hn ▸ measure_step moved
      rw [ih _ lighter _ later rfl, ih _ lighter (#[] ++ actions) later rfl]
      exact Prod.ext (Array.ext' (by simp)) rfl
    · simp

/-- The actions of a step come first, and those of the rest follow. -/
theorem run_of_step {recognizer later : Recognizer} {actions : List Action}
    (moved : recognizer.step = .ok (actions, later)) :
    recognizer.run = (actions ++ later.run.1, later.run.2) := by
  rw [run, runOnto]
  split
  · rename_i actions' later' moved'
    rw [moved] at moved'
    obtain ⟨rfl, rfl⟩ := Prod.ext_iff.1 (Except.ok.inj moved')
    simp [runOnto_eq]
  · rename_i error stopped
    rw [moved] at stopped
    contradiction

theorem run_of_stop {recognizer : Recognizer} {error : Option SyntaxError}
    (stopped : recognizer.step = .error error) : recognizer.run = ([], error) := by
  rw [run, runOnto]
  split
  · rename_i moved
    rw [stopped] at moved
    contradiction
  · rename_i error' stopped'
    rw [stopped] at stopped'
    obtain rfl := Except.error.inj stopped'
    simp

end Recognizer

end Jack
