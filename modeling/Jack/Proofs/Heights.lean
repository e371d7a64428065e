import Jack.Proofs.Jumps

namespace Jack

/-- The words that an operation works on. -/
def Operation.operands : Operation → Nat
  | neg | not => 1
  | add | sub | eq | gt | lt | and | or => 2

namespace Instruction

/-- The words that an instruction takes from the stack. -/
def takes : Instruction → Nat
  | push .. | label _ | goto _ | function .. => 0
  | pop .. | ifGoto _ | ret => 1
  | operate operation => operation.operands
  | call _ count => count

/-- The words that an instruction leaves there instead. What `ret` takes is for the caller. -/
def leaves : Instruction → Nat
  | push .. | operate _ | call .. => 1
  | pop .. | label _ | goto _ | ifGoto _ | function .. | ret => 0

theorem leaves_le (instruction : Instruction) : instruction.leaves ≤ 1 := by
  cases instruction <;> simp [leaves]

end Instruction

namespace Machine

variable {oracle : Oracle} {machine next : Machine}

theorem length_result? {operation : Operation} {stack after : List Word}
    (done : operation.result? stack = some after) :
    after.length + operation.operands = stack.length + 1 := by
  unfold Operation.result? at done
  split at done <;> cases done <;> rfl

theorem stack_write? {word : Word} {segment : Segment} {index : Nat}
    (wrote : machine.write? word segment index = some next) : next.stack = machine.stack := by
  unfold write? at wrote
  repeat' split at wrote
  all_goals
    cases wrote
  all_goals
    rfl

/-- An instruction takes from the stack and leaves there what it is said to. -/
theorem length_effect? {instruction : Instruction}
    (acts : machine.effect? oracle instruction = some next) :
    next.stack.length + instruction.takes = machine.stack.length + instruction.leaves := by
  cases instruction with
  | push segment index =>
    obtain ⟨word, -, rfl⟩ := Option.map_eq_some_iff.1 acts
    rfl
  | pop segment index =>
    simp only [effect?] at acts
    split at acts
    · cases acts
    · rename_i word stack top
      rw [stack_write? acts, top]
      rfl
  | operate operation =>
    obtain ⟨stack, done, rfl⟩ := Option.map_eq_some_iff.1 acts
    exact length_result? done
  | call callee count =>
    simp only [effect?] at acts
    split at acts
    · cases acts
      simp only [List.length_cons, List.length_drop, Instruction.takes, Instruction.leaves]
      omega
    · cases acts
  | _ => cases acts

end Machine

namespace Activation

variable {oracle : Oracle} {code : List Instruction} {here next : Activation}

theorem getElem?_of_destination? {name : String} {there : Nat}
    (found : destination? code name = some there) : code[there]? = some (.label name) := by
  obtain ⟨inside, isLabel, -⟩ := List.findIdx?_eq_some_iff_getElem.1 found
  rw [List.getElem?_eq_getElem inside, of_decide_eq_true isLabel]

/-- A step leads on to the next instruction or to a label, and changes the number of words on the
stack as its instruction says. -/
theorem length_step? (moved : here.step? oracle code = some next) :
    ∃ instruction, code[here.place]? = some instruction ∧
      next.machine.stack.length + instruction.takes =
        here.machine.stack.length + instruction.leaves ∧
      (next.place = here.place + 1 ∨
        ∃ name ∈ instruction.target?, code[next.place]? = some (.label name)) := by
  obtain ⟨place, machine⟩ := here
  cases isHere : code[place]? with
  | none => simp [step?, isHere] at moved
  | some instruction =>
    refine ⟨instruction, rfl, ?_⟩
    cases instruction with
    | ret => simp [step?, isHere] at moved
    | label name | function name count =>
      simp only [step?, isHere, Option.some.injEq] at moved
      subst moved
      exact ⟨rfl, .inl rfl⟩
    | goto name =>
      simp only [step?, isHere] at moved
      obtain ⟨there, found, rfl⟩ := Option.map_eq_some_iff.1 moved
      exact ⟨rfl, .inr ⟨name, rfl, getElem?_of_destination? found⟩⟩
    | ifGoto name =>
      simp only [step?, isHere] at moved
      split at moved
      · cases moved
      · rename_i word stack top
        have popped : stack.length + 1 = machine.stack.length := (congrArg List.length top).symm
        split at moved
        · cases moved
          exact ⟨popped, .inl rfl⟩
        · obtain ⟨there, found, rfl⟩ := Option.map_eq_some_iff.1 moved
          exact ⟨popped, .inr ⟨name, rfl, getElem?_of_destination? found⟩⟩
    | push | pop | operate | call =>
      simp only [step?, isHere] at moved
      obtain ⟨after, acts, rfl⟩ := Option.map_eq_some_iff.1 moved
      exact ⟨Machine.length_effect? acts, .inl rfl⟩

end Activation

/-- The words on the stack of a function that were there before it was entered are not counted.
The number behind an instruction is fixed even where nothing leads on to the next one. -/
structure Disciplined (code : List Instruction) (height : Nat → Nat) : Prop where
  start : height 0 = 0
  enough : ∀ place instruction, code[place]? = some instruction →
    instruction.takes ≤ height place
  onward : ∀ place instruction, code[place]? = some instruction →
    height (place + 1) + instruction.takes = height place + instruction.leaves
  jump : ∀ place instruction, code[place]? = some instruction →
    ∀ name ∈ instruction.target?, ∀ there, code[there]? = some (.label name) →
      height there + instruction.takes = height place + instruction.leaves
  mark : ∀ place instruction, code[place]? = some instruction → instruction.isMark →
    height place = 0
  finish : height code.length = 0
  returns : ∀ place, code[place]? = some .ret → height place = 1

/-- Some words on top of the stack at a place were put there by straight code in front of it, which
takes nothing that was there before. -/
def Supplied (code : List Instruction) (height : Nat → Nat) (place count : Nat) : Prop :=
  ∃ start ≤ place, height start + count = height place ∧
    ∀ between instruction, start ≤ between → between < place → code[between]? = some instruction →
      instruction.isStraight ∧ height start + instruction.takes ≤ height between

namespace Disciplined

variable {code : List Instruction} {height : Nat → Nat} {oracle : Oracle}

theorem rises (disciplined : Disciplined code height) {place : Nat} (inside : place < code.length) :
    height (place + 1) ≤ height place + 1 := by
  have onward := disciplined.onward place _ (List.getElem?_eq_getElem inside)
  have few := (code[place]).leaves_le
  omega

/-- Below every number of words on the stack there is a last place with this number. -/
theorem exists_last (disciplined : Disciplined code height) {place low : Nat}
    (inside : place ≤ code.length) (below : low ≤ height place) :
    ∃ start ≤ place, height start = low ∧ ∀ between, start < between → between ≤ place →
      low < height between := by
  induction place with
  | zero =>
    have atStart := disciplined.start
    exact ⟨0, Nat.le_refl 0, by omega, fun between after before => by omega⟩
  | succ place ih =>
    by_cases same : height (place + 1) = low
    · exact ⟨place + 1, Nat.le_refl _, same, fun between after before => by omega⟩
    · have step := disciplined.rises (Nat.lt_of_succ_le inside)
      obtain ⟨start, before, isLow, above⟩ := ih (by omega) (by omega)
      refine ⟨start, by omega, isLow, fun between after within => ?_⟩
      rcases Nat.lt_or_eq_of_le within with within | rfl
      · exact above between after (by omega)
      · omega

/-- Nothing is left behind an instruction that does more than lead on to the next one. -/
theorem next_eq_zero (disciplined : Disciplined code height) (closed : Closed code) {place : Nat}
    {instruction : Instruction} (isHere : code[place]? = some instruction)
    (turns : ¬instruction.isStraight) : height (place + 1) = 0 := by
  have onward := disciplined.onward place instruction isHere
  -- A jump and its label have to agree, and at the label nothing is left.
  have jumped : ∀ name ∈ instruction.target?,
      instruction.takes = height place + instruction.leaves := by
    intro name isTarget
    have member := closed instruction (List.mem_of_getElem? isHere) name isTarget
    obtain ⟨there, isThere⟩ := List.mem_iff_getElem?.1 member
    have jump := disciplined.jump place instruction isHere name isTarget there isThere
    have mark := disciplined.mark there _ isThere rfl
    omega
  cases instruction with
  | push | pop | operate | call => exact absurd rfl turns
  | label | function =>
    have mark := disciplined.mark place _ isHere rfl
    simp only [Instruction.takes, Instruction.leaves] at onward
    omega
  | goto name | ifGoto name =>
    have jump := jumped name rfl
    omega
  | ret =>
    have returns := disciplined.returns place isHere
    simp only [Instruction.takes, Instruction.leaves] at onward
    omega

/-- The words that a call takes are all put there for it. -/
theorem supplied (disciplined : Disciplined code height) (closed : Closed code) {place count : Nat}
    {callee : String} (isCall : code[place]? = some (.call callee count)) :
    Supplied code height place count := by
  have inside : place < code.length := (List.getElem?_eq_some_iff.1 isCall).1
  have enough : count ≤ height place := disciplined.enough place _ isCall
  obtain ⟨start, before, isLow, above⟩ :=
    disciplined.exists_last (Nat.le_of_lt inside) (Nat.sub_le (height place) count)
  refine ⟨start, before, by omega, fun between instruction after within isHere => ?_⟩
  have next := above (between + 1) (by omega) (by omega)
  have onward := disciplined.onward between instruction isHere
  have few := instruction.leaves_le
  refine ⟨Decidable.byContradiction fun turns => ?_, by omega⟩
  have nothing := disciplined.next_eq_zero closed isHere turns
  omega

/-- A machine that is entered with some words on its stack keeps them, and above them it has as
many as are fixed for the place that it is at. -/
theorem step (disciplined : Disciplined code height) {here next : Activation} {low : Nat}
    (moved : here.step? oracle code = some next)
    (high : here.machine.stack.length = low + height here.place) :
    next.machine.stack.length = low + height next.place := by
  obtain ⟨instruction, isHere, effect, onward | ⟨name, isTarget, isThere⟩⟩ :=
    Activation.length_step? moved
  · have fixed := disciplined.onward here.place instruction isHere
    rw [onward]
    omega
  · have fixed := disciplined.jump here.place instruction isHere name isTarget next.place isThere
    omega

/-- Along every run the number of words is the fixed one. -/
theorem reaches (disciplined : Disciplined code height) {here last : Activation} {low : Nat}
    (run : Activation.Reaches oracle code here last)
    (high : here.machine.stack.length = low + height here.place) :
    last.machine.stack.length = low + height last.place := by
  induction run with
  | refl => exact high
  | tail _ moved ih => exact disciplined.step moved ih

end Disciplined

end Jack
