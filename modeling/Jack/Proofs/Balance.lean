import Jack.Proofs.Heights

namespace Jack

/-- Whether an instruction can stand where a number of words is on the stack. What does more than
lead on to the next instruction leaves nothing there. -/
structure Instruction.Fits (instruction : Instruction) (height : Nat) : Prop where
  enough : instruction.takes ≤ height
  turn : ¬instruction.isStraight → height = instruction.takes ∧ instruction.leaves = 0

def Instruction.after (instruction : Instruction) (height : Nat) : Nat :=
  height - instruction.takes + instruction.leaves

/-- Code that begins with one number of words on the stack and ends with another. -/
inductive Climbs : List Instruction → Nat → Nat → Prop where
  | nil {height : Nat} : Climbs [] height height
  | cons {low high : Nat} {instruction : Instruction} {code : List Instruction}
      (fits : instruction.Fits low) (rest : Climbs code (instruction.after low) high) :
      Climbs (instruction :: code) low high

namespace Climbs

variable {low middle high place : Nat} {code first last : List Instruction}
  {instruction : Instruction}

theorem append (front : Climbs first low middle) (back : Climbs last middle high) :
    Climbs (first ++ last) low high := by
  induction front with
  | nil => exact back
  | cons fits _ ih => exact .cons fits (ih back)

/-- How many words there are behind the first instructions of code. -/
def heightAt (low : Nat) (code : List Instruction) (place : Nat) : Nat :=
  (code.take place).foldl (fun height instruction => instruction.after height) low

theorem heightAt_succ (isHere : code[place]? = some instruction) :
    heightAt low code (place + 1) = instruction.after (heightAt low code place) := by
  rw [heightAt, heightAt, List.take_add_one, isHere, List.foldl_append]
  rfl

theorem heightAt_length (climbs : Climbs code low high) : heightAt low code code.length = high := by
  induction climbs with
  | nil => rfl
  | cons _ _ ih => exact ih

theorem fits (climbs : Climbs code low high) (isHere : code[place]? = some instruction) :
    instruction.Fits (heightAt low code place) := by
  induction climbs generalizing place with
  | nil => cases isHere
  | cons fits _ ih =>
    cases place with
    | zero =>
      obtain rfl := Option.some.inj isHere
      exact fits
    | succ place => exact ih isHere

/-- Code from nothing to nothing. Its jumps and its labels agree, since nothing is left at any of
them. -/
theorem disciplined (climbs : Climbs code 0 0) : Disciplined code (heightAt 0 code) where
  start := rfl
  enough place instruction isHere := (climbs.fits isHere).enough
  onward place instruction isHere := by
    have enough := (climbs.fits isHere).enough
    rw [heightAt_succ isHere, Instruction.after]
    omega
  jump place instruction isHere name isTarget there isThere := by
    have turns : ¬instruction.isStraight := by
      intro straight
      rw [Instruction.target?_of_isStraight straight] at isTarget
      cases isTarget
    obtain ⟨takesAll, leavesNone⟩ := (climbs.fits isHere).turn turns
    have atLabel := ((climbs.fits isThere).turn (by simp [Instruction.isStraight])).1
    have takesNone : (Instruction.label name).takes = 0 := rfl
    omega
  mark place instruction isHere isMark := by
    have turns : ¬instruction.isStraight := fun straight =>
      Instruction.not_isMark_of_isStraight straight isMark
    obtain ⟨empty, -⟩ := (climbs.fits isHere).turn turns
    cases instruction <;> first | exact empty | cases isMark
  finish := climbs.heightAt_length
  returns place isHere := ((climbs.fits isHere).turn (by simp [Instruction.isStraight])).1

/-- What a piece of code does to the number of words is the same wherever it stands. -/
theorem across {height : Nat → Nat} {part : List Instruction} (climbs : Climbs part low high)
    (disciplined : Disciplined code height) (placed : Placed code place part) :
    height (place + part.length) + low = height place + high := by
  induction climbs generalizing place with
  | nil => rfl
  | @cons low high instruction part fits _ ih =>
    have onward := disciplined.onward place instruction placed.head
    have behind := ih placed.tail
    have enough := fits.enough
    have length : place + (instruction :: part).length = place + 1 + part.length := by
      rw [List.length_cons]
      omega
    rw [length]
    rw [Instruction.after] at behind
    omega

/-- Straight code goes on on top of words that it does not touch. -/
theorem straight (straight : instruction.isStraight) (low : Nat)
    (rest : Climbs code (low + instruction.leaves) high) :
    Climbs (instruction :: code) (low + instruction.takes) high := by
  have after : instruction.after (low + instruction.takes) = low + instruction.leaves := by
    rw [Instruction.after, Nat.add_sub_cancel]
  exact .cons ⟨Nat.le_add_left _ _, fun turns => absurd straight turns⟩ (after ▸ rest)

/-- Any other instruction stands only where nothing is left behind it. -/
theorem turn (leavesNone : instruction.leaves = 0) (rest : Climbs code 0 high) :
    Climbs (instruction :: code) instruction.takes high := by
  have after : instruction.after instruction.takes = 0 := by
    rw [Instruction.after, leavesNone, Nat.sub_self]
  exact .cons ⟨Nat.le_refl _, fun _ => ⟨rfl, leavesNone⟩⟩ (after ▸ rest)

variable {environment : Environment} {name : String} {body otherwise : List Instruction}

theorem push (declared : environment.declared name) (low : Nat) :
    Climbs (environment.push name) low (low + 1) := by
  obtain ⟨found, known⟩ := Option.isSome_iff_exists.1 declared
  rw [Environment.push, known]
  exact straight rfl low .nil

theorem pop (declared : environment.declared name) (low : Nat) :
    Climbs (environment.pop name) (low + 1) low := by
  obtain ⟨found, known⟩ := Option.isSome_iff_exists.1 declared
  rw [Environment.pop, known]
  exact straight rfl low .nil

/-- The receiver of a call is as many words as it is instructions. -/
theorem receiver (environment : Environment) (qualifier : Option String) (low : Nat) :
    Climbs (environment.receiver qualifier) low
      (low + (environment.receiver qualifier).length) := by
  cases qualifier with
  | none => exact straight rfl low .nil
  | some name =>
    rw [Environment.receiver, Environment.push]
    cases environment.lookup? name with
    | none => exact .nil
    | some found => exact straight rfl low .nil

/-- A call takes its receiver and its arguments, and leaves its result. -/
theorem call (qualifier : Option String) (callee : String) {count : Nat}
    (arguments : ∀ low, Climbs code low (low + count)) (low : Nat) :
    Climbs (environment.call qualifier callee code count) low (low + 1) := by
  have both := (receiver environment qualifier low).append (arguments _)
  rw [Nat.add_assoc] at both
  exact both.append (straight rfl low .nil)

/-- While a string is made it is the only word that waits. -/
theorem stringCode (text : List Char) (low : Nat) : Climbs (stringCode text) low (low + 1) := by
  have chars : Climbs (text.flatMap fun c => [.push .constant c.toNat,
      .call "String.appendChar" 2]) (low + 1) (low + 1) := by
    induction text with
    | nil => exact .nil
    | cons c text ih => exact straight rfl (low + 1) (straight rfl low ih)
  exact straight rfl low (straight rfl low chars)

/-- A choice between pieces of code that leave nothing. -/
theorem choice (number : Nat) (condition : Climbs code 0 1) (then_ : Climbs body 0 0)
    (else_ : Climbs otherwise 0 0) :
    Climbs (environment.choice number code body otherwise) 0 0 := by
  have enter (yes no : String) : Climbs [.ifGoto yes, .goto no, .label yes] 1 0 :=
    turn rfl (turn rfl (turn rfl .nil))
  have change (behind no : String) : Climbs [.goto behind, .label no] 0 0 :=
    turn rfl (turn rfl .nil)
  have inside (yes no : String) := (condition.append (enter yes no)).append then_
  exact (((inside _ _).append (change _ _)).append else_).append (turn rfl .nil)

theorem loop (number : Nat) (condition : Climbs code 0 1) (body_ : Climbs body 0 0) :
    Climbs (environment.loop number code body) 0 0 := by
  have start (again : String) : Climbs [.label again] 0 0 := turn rfl .nil
  have enter (behind : String) : Climbs [.operate .not, .ifGoto behind] 1 0 :=
    straight rfl 0 (turn rfl .nil)
  exact ((((start _).append condition).append (enter _)).append body_).append
    (turn rfl (turn rfl .nil))

end Climbs

theorem BinaryOperator.climbs (operator : BinaryOperator) {code : List Instruction} {low high : Nat}
    (rest : Climbs code (low + 1) high) : Climbs (operator.code :: code) (low + 2) high := by
  cases operator <;> exact .straight rfl low rest

theorem UnaryOperator.climbs (operator : UnaryOperator) (low : Nat) :
    Climbs [operator.code] (low + 1) (low + 1) := by
  cases operator <;> exact .straight rfl low .nil

theorem KeywordConstant.climbs (word : KeywordConstant) (low : Nat) :
    Climbs word.code low (low + 1) := by
  cases word with
  | true => exact .straight rfl low (.straight rfl low .nil)
  | _ => exact .straight rfl low .nil

variable {environment : Environment}

mutual

/-- An expression leaves one word on top of whatever waits. -/
theorem Expression.climbs : (expression : Expression) → expression.Valid environment.declared →
    ∀ low, Climbs (expression.code environment) low (low + 1)
  | .mk first more, valid, low => (first.climbs valid.1 low).append (more.climbs valid.2 low)

theorem Operators.climbs : (operators : Operators) → operators.Valid environment.declared →
    ∀ low, Climbs (operators.code environment) (low + 1) (low + 1)
  | .done, _, _ => .nil
  | .more operator operand rest, valid, low =>
    (operand.climbs valid.1 (low + 1)).append (operator.climbs (rest.climbs valid.2 low))

theorem Term.climbs : (term : Term) → term.Valid environment.declared →
    ∀ low, Climbs (term.code environment) low (low + 1)
  | .integer _, _, low => .straight rfl low .nil
  | .string text, _, low => .stringCode text.toList low
  | .constant word, _, low => word.climbs low
  | .variable _, valid, low => .push valid low
  | .element _ index, valid, low =>
    ((Climbs.push valid.1 low).append (index.climbs valid.2 (low + 1))).append
      (.straight rfl low (.straight rfl low (.straight rfl low .nil)))
  | .call qualifier callee arguments, valid, low =>
    .call qualifier callee (arguments.climbs valid.1) low
  | .parentheses inner, valid, low => inner.climbs valid low
  | .unary operator operand, valid, low => (operand.climbs valid low).append (operator.climbs low)

/-- Arguments leave a word each. -/
theorem Arguments.climbs : (arguments : Arguments) → arguments.Valid environment.declared →
    ∀ low, Climbs (arguments.code environment) low (low + arguments.length)
  | .done, _, _ => .nil
  | .more first rest, valid, low => by
    have both := (first.climbs valid.1 low).append (rest.climbs valid.2 (low + 1))
    rwa [Nat.add_right_comm] at both

end

mutual

/-- A statement leaves nothing, wherever it is left. -/
theorem Statement.climbs : (statement : Statement) → statement.Valid environment.declared →
    ∀ numbering, Climbs (statement.code environment numbering) 0 0
  | .setVariable _ value, valid, _ => (value.climbs valid.2 0).append (.pop valid.1 0)
  | .setElement _ index value, valid, _ => by
    -- The address waits while the value is found, and is popped behind it.
    have add : Climbs [.operate .add] 2 1 := .straight rfl 0 .nil
    have address := ((Climbs.push valid.1 0).append (index.climbs valid.2.1 1)).append add
    have store : Climbs [.pop .temp 0, .pop .pointer 1, .push .temp 0, .pop .that 0] 2 0 :=
      .straight rfl 1 (.straight rfl 0 (.straight rfl 0 (.straight rfl 0 .nil)))
    exact (address.append (value.climbs valid.2.2 1)).append store
  | .ifThen condition body, valid, numbering =>
    .choice _ (condition.climbs valid.1 0) (body.climbs valid.2 numbering.choice) .nil
  | .ifElse condition body otherwise, valid, numbering =>
    .choice _ (condition.climbs valid.1 0) (body.climbs valid.2.1 numbering.choice)
      (otherwise.climbs valid.2.2 (body.numbered numbering.choice))
  | .loop condition body, valid, numbering =>
    .loop _ (condition.climbs valid.1 0) (body.climbs valid.2 numbering.loop)
  | .doCall qualifier callee arguments, valid, _ =>
    (Climbs.call qualifier callee (arguments.climbs valid.1) 0).append (.straight rfl 0 .nil)
  | .returnNothing, _, _ => .straight rfl 0 (.turn rfl .nil)
  | .returnValue value, valid, _ => (value.climbs valid 0).append (.turn rfl .nil)

theorem Statements.climbs : (statements : Statements) → statements.Valid environment.declared →
    ∀ numbering, Climbs (statements.code environment numbering) 0 0
  | .done, _, _ => .nil
  | .more first rest, valid, numbering =>
    (first.climbs valid.1 numbering).append (rest.climbs valid.2 (first.numbered numbering))

end

namespace Subroutine

variable {className : String} {classVariables : List Declaration} {subroutine : Subroutine}

theorem climbs_opening (fields : Nat) (subroutine : Subroutine) :
    Climbs (subroutine.opening fields) 0 0 := by
  unfold opening
  split
  · exact .straight rfl 0 (.straight rfl 0 (.straight rfl 0 .nil))
  · exact .straight rfl 0 (.straight rfl 0 .nil)
  · exact .nil

theorem climbs_code (valid : subroutine.Valid className classVariables) :
    Climbs (subroutine.code className classVariables) 0 0 := by
  have validBody := valid.body
  rw [← declared_environment] at validBody
  have opening := subroutine.climbs_opening (Declaration.count .field classVariables)
  have body := subroutine.body.climbs validBody .zero
  exact .turn rfl (opening.append body)

end Subroutine

/-- What the numbers of words in front of the instructions of a function say about it. The words
that a call takes were put there for it, no statement leaves one behind, and however the function
is run, it has this many words above those that it was entered with. -/
structure Balanced (code : List Instruction) (height : Nat → Nat) : Prop where
  disciplined : Disciplined code height
  calls : ∀ place callee count, code[place]? = some (.call callee count) →
    Supplied code height place count
  statements : ∀ (environment : Environment) (statement : Statement) (numbering : Numbering) place,
    statement.Valid environment.declared →
    Placed code place (statement.code environment numbering) →
    height (place + (statement.code environment numbering).length) = height place
  runs : ∀ oracle machine last, Activation.Reaches oracle code ⟨0, machine⟩ last →
    last.machine.stack.length = machine.stack.length + height last.place

theorem Subroutine.balanced_code {className : String} {classVariables : List Declaration}
    {subroutine : Subroutine} (valid : subroutine.Valid className classVariables) :
    ∃ height, Balanced (subroutine.code className classVariables) height := by
  have disciplined := (subroutine.climbs_code valid).disciplined
  have closed := subroutine.closed_code className classVariables
  refine ⟨_, disciplined, ?_, ?_, ?_⟩
  · intro place callee count isCall
    exact disciplined.supplied closed isCall
  · intro environment statement numbering place statementValid placed
    exact (statement.climbs statementValid numbering).across disciplined placed
  · intro oracle machine last run
    exact disciplined.reaches run rfl

/-- Each function that is written is balanced, on every way through it. -/
theorem Compilation.ofSource_balanced {limit : Nat} {source : String} {sink : Sink}
    {summary : Summary} (compiled : (ofSource limit source sink).result = .ok summary) :
    WritesFunctions limit source sink summary fun part => ∃ height, Balanced part height :=
  writesFunctions compiled fun _ _ _ valid => Subroutine.balanced_code valid

theorem Compilation.ofSource_balanced_branching :
    (ofSource 4 branchingSource .unlimited).result = .ok ⟨"Main", 1, 44⟩ ∧
      WritesFunctions 4 branchingSource .unlimited ⟨"Main", 1, 44⟩ fun part =>
        ∃ height, Balanced part height :=
  ⟨branchingSource_compiled, ofSource_balanced branchingSource_compiled⟩

end Jack
