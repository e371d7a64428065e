import Jack.Proofs.Control

namespace Jack

open Activation

/-- Leads from a store to the end of a piece of code, or to its return. -/
def Carries (oracle : Oracle) (code part : List Instruction) (store : Store) (ending : Ending)
    (last : Store) : Prop :=
  ∀ place machine, Placed code place part → machine.store = store →
    Arrives oracle code ⟨place, machine⟩ (place + part.length) ending last

/-- Leaves a word on the stack, from whatever machine with that store. -/
def Leaves (oracle : Oracle) (part : List Instruction) (store : Store) (word : Word)
    (world : World) : Prop :=
  ∀ machine : Machine, machine.store = store → machine.Yields oracle part [word] world

variable {oracle : Oracle} {code part condition body otherwise : List Instruction}
  {place number : Nat} {machine : Machine} {frame : Frame} {world after : World} {word : Word}
  {words : List Word} {ending : Ending} {store middle last : Store} {environment : Environment}

theorem Machine.Yields.reaches (yields : machine.Yields oracle part words world)
    (placed : Placed code place part) :
    ∃ next : Machine, Reaches oracle code ⟨place, machine⟩ ⟨place + part.length, next⟩ ∧
      next.stack = words.reverse ++ machine.stack ∧ next.store = ⟨machine.frame, world⟩ := by
  obtain ⟨that, temp, done⟩ := yields
  exact ⟨_, reaches_execute placed done, rfl, rfl⟩

theorem Leaves.reaches (leaves : Leaves oracle part ⟨frame, world⟩ word after)
    (placed : Placed code place part) (same : machine.store = ⟨frame, world⟩) :
    ∃ next : Machine, Reaches oracle code ⟨place, machine⟩ ⟨place + part.length, next⟩ ∧
      next.stack = word :: machine.stack ∧ next.store = ⟨frame, after⟩ := by
  obtain ⟨next, reaches, stack, isStore⟩ := (leaves machine same).reaches placed
  cases same
  exact ⟨next, reaches, stack, isStore⟩

namespace Carries

theorem nil : Carries oracle code [] store .through store :=
  fun _ _ _ same => .through .refl rfl same

theorem append {first last : List Instruction} {final : Store}
    (front : Carries oracle code first store .through middle)
    (back : Carries oracle code last middle ending final) :
    Carries oracle code (first ++ last) store ending final := by
  intro place machine placed same
  refine (front place machine placed.front same).followed fun next onward => ?_
  have arrives := back _ next placed.back onward
  rwa [List.length_append, ← Nat.add_assoc]

theorem append_returned {first : List Instruction} (last : List Instruction) {final : Store}
    (front : Carries oracle code first store (.returned word) final) :
    Carries oracle code (first ++ last) store (.returned word) final := by
  intro place machine placed same
  cases front place machine placed.front same with
  | returned reaches returns stack isStore => exact .returned reaches returns stack isStore

/-- Code without jumps that leaves the stack and the frame as they were. -/
theorem of_yields (yields : ∀ machine : Machine, machine.store = ⟨frame, world⟩ →
      machine.Yields oracle part [] after) :
    Carries oracle code part ⟨frame, world⟩ .through ⟨frame, after⟩ := by
  intro place machine placed same
  obtain ⟨next, reaches, stack, isStore⟩ := (yields machine same).reaches placed
  cases same
  exact .through reaches stack isStore

theorem ret (leaves : Leaves oracle part ⟨frame, world⟩ word after) :
    Carries oracle code (part ++ [.ret]) ⟨frame, world⟩ (.returned word) ⟨frame, after⟩ := by
  intro place machine placed same
  obtain ⟨next, reaches, stack, isStore⟩ := leaves.reaches placed.front same
  exact .returned reaches placed.back.head stack isStore

/-- The word that is tested decides between the branches, and both end at the same place. -/
theorem choice (distinct : (marks code).Nodup)
    (tested : Leaves oracle condition ⟨frame, world⟩ word after)
    (holds : word ≠ 0 → Carries oracle code body ⟨frame, after⟩ ending last)
    (fails : word = 0 → Carries oracle code otherwise ⟨frame, after⟩ ending last) :
    Carries oracle code (environment.choice number condition body otherwise) ⟨frame, world⟩
      ending last := by
  intro place machine placed same
  have tests := placed.front.front.front.front
  have inside := placed.front.front.front.back
  have between := placed.front.front.back
  have others := placed.front.back
  have ends := placed.back.head
  obtain ⟨next, reaches, stack, isStore⟩ := tested.reaches tests.front same
  by_cases isZero : word = 0
  · subst isZero
    have passes := reaches_ifGoto_zero oracle tests.back.head stack
    have jumps := reaches_goto oracle { next with stack := machine.stack } distinct
      tests.back.tail.head between.tail.head
    have enters := reaches_label oracle { next with stack := machine.stack } between.tail.head
    have arrives := fails rfl _ { next with stack := machine.stack } others isStore
    have leaves (machine : Machine) := reaches_label oracle machine ends
    simp only [Environment.choice, List.length_append, List.length_cons, List.length_nil,
      Nat.add_assoc, Nat.reduceAdd] at *
    exact (arrives.after (((reaches.trans passes).trans jumps).trans enters) rfl).onward leaves
  · have jumps := reaches_ifGoto oracle distinct tests.back.head tests.back.tail.tail.head stack
      isZero
    have enters := reaches_label oracle { next with stack := machine.stack }
      tests.back.tail.tail.head
    have arrives := holds isZero _ { next with stack := machine.stack } inside isStore
    have leaves (machine : Machine) :=
      (reaches_goto oracle machine distinct between.head ends).trans
        (reaches_label oracle machine ends)
    simp only [Environment.choice, List.length_append, List.length_cons, List.length_nil,
      Nat.add_assoc, Nat.reduceAdd] at *
    exact (arrives.after ((reaches.trans jumps).trans enters) rfl).onward leaves

/-- What a loop does before it comes to the jump that leaves it. -/
theorem loop_turns (tested : Leaves oracle condition ⟨frame, world⟩ word after)
    (placed : Placed code place (environment.loop number condition body))
    (same : machine.store = ⟨frame, world⟩) :
    ∃ next : Machine,
      Reaches oracle code ⟨place, machine⟩ ⟨place + (condition.length + 1) + 1, next⟩ ∧
      code[place + (condition.length + 1) + 1]? =
        some (.ifGoto (environment.label "WHILE_END" number)) ∧
      next.stack = ~~~word :: machine.stack ∧ next.store = ⟨frame, after⟩ := by
  have front := placed.front.front
  have starts := reaches_label oracle machine front.front.front.head
  obtain ⟨next, reaches, stack, isStore⟩ := tested.reaches front.front.back same
  have complements : next.effect? oracle (.operate .not) =
      some { next with stack := ~~~word :: machine.stack } := by
    simp only [Machine.effect?, stack, Operation.result?, Option.map_some]
  have inverts := reaches_effect front.back.head complements
  have turns := front.back.tail.head
  rw [List.length_append, List.length_singleton, Nat.add_comm 1] at inverts turns
  rw [List.length_singleton, Nat.add_assoc, Nat.add_comm 1] at reaches
  exact ⟨_, (starts.trans reaches).trans inverts, turns, rfl, isStore⟩

/-- A loop is left where the complement of its condition is not zero. -/
theorem loop_end (distinct : (marks code).Nodup)
    (tested : Leaves oracle condition ⟨frame, world⟩ word after) (fails : ~~~word ≠ 0) :
    Carries oracle code (environment.loop number condition body) ⟨frame, world⟩ .through
      ⟨frame, after⟩ := by
  intro place machine placed same
  obtain ⟨next, reaches, turns, stack, isStore⟩ := loop_turns tested placed same
  have ends := placed.back.tail.head
  have jumps := reaches_ifGoto oracle distinct turns ends stack fails
  have leaves := reaches_label oracle { next with stack := machine.stack } ends
  rw [Environment.loop, List.length_append, ← Nat.add_assoc]
  exact .through ((reaches.trans jumps).trans leaves) rfl isStore

/-- Where the body of a loop is passed, the loop begins again. -/
theorem loop_enters {turn : Ending} (distinct : (marks code).Nodup)
    (tested : Leaves oracle condition ⟨frame, world⟩ word after) (holds : ~~~word = 0)
    (once : Carries oracle code body ⟨frame, after⟩ turn middle)
    (placed : Placed code place (environment.loop number condition body))
    (same : machine.store = ⟨frame, world⟩) :
    Arrives oracle code ⟨place, machine⟩ place turn middle := by
  obtain ⟨next, reaches, turns, stack, isStore⟩ := loop_turns tested placed same
  rw [holds] at stack
  have begins := placed.front.front.front.front.head
  have enters := reaches_ifGoto_zero oracle turns stack
  have arrives := once _ { next with stack := machine.stack } placed.front.back isStore
  have leaves (machine : Machine) := reaches_goto oracle machine distinct placed.back.head begins
  rw [List.length_append, ← Nat.add_assoc] at leaves
  rw [List.length_append, List.length_append, List.length_singleton, Nat.add_comm 1,
    ← Nat.add_assoc] at arrives leaves
  exact (arrives.after (reaches.trans enters) rfl).onward leaves

theorem loop_again (distinct : (marks code).Nodup)
    (tested : Leaves oracle condition ⟨frame, world⟩ word after) (holds : ~~~word = 0)
    (once : Carries oracle code body ⟨frame, after⟩ .through middle)
    (again : Carries oracle code (environment.loop number condition body) middle ending last) :
    Carries oracle code (environment.loop number condition body) ⟨frame, world⟩ ending last :=
  fun place _ placed same =>
    (loop_enters distinct tested holds once placed same).followed fun next onward =>
      again place next placed onward

theorem loop_return {result : Word} (distinct : (marks code).Nodup)
    (tested : Leaves oracle condition ⟨frame, world⟩ word after) (holds : ~~~word = 0)
    (once : Carries oracle code body ⟨frame, after⟩ (.returned result) last) :
    Carries oracle code (environment.loop number condition body) ⟨frame, world⟩
      (.returned result) last := by
  intro place machine placed same
  cases loop_enters distinct tested holds once placed same with
  | returned reaches returns stack isStore => exact .returned reaches returns stack isStore

end Carries

theorem Expression.leaves {expression : Expression} (valid : expression.Valid environment.declared)
    (valued : expression.eval environment oracle frame world = (word, after)) :
    Leaves oracle (expression.code environment) ⟨frame, world⟩ word after := by
  rintro machine ⟨⟩
  have yields : machine.Yields oracle _ _ _ := expression.yields machine valid
  rwa [valued] at yields

/-- The call of a statement is a term. -/
theorem Term.leaves {term : Term} (valid : term.Valid environment.declared)
    (valued : term.eval environment oracle frame world = (word, after)) :
    Leaves oracle (term.code environment) ⟨frame, world⟩ word after := by
  rintro machine ⟨⟩
  have yields : machine.Yields oracle _ _ _ := term.yields machine valid
  rwa [valued] at yields

theorem Leaves.zero : Leaves oracle [.push .constant 0] store 0 store.world := by
  rintro machine rfl
  exact .push rfl

namespace Machine.Yields

variable {address : Word}

/-- The word on top is stored below the address under it. -/
theorem setElement (front : machine.Yields oracle part [address, word] world) :
    machine.Yields oracle
      (part ++ [.pop .temp 0, .pop .pointer 1, .push .temp 0, .pop .that 0]) []
      (world.setHeap address word) := by
  refine front.use fun next stack onto frame reached => ?_
  subst reached
  refine ⟨address, fun index => if index = 0 then word else next.temp index, ?_⟩
  simp [execute?, effect?, onto, write?, read?]

theorem drop (front : machine.Yields oracle part [word] world) :
    machine.Yields oracle (part ++ [.pop .temp 0]) [] world := by
  refine front.use fun next stack onto frame reached => ?_
  subst reached
  refine ⟨next.that, fun index => if index = 0 then word else next.temp index, ?_⟩
  simp [execute?, effect?, onto, write?]

end Machine.Yields

/-- A variable is given the word on top of the stack. -/
theorem Variable.effect?_pop (oracle : Oracle) (found : Variable) {stack : List Word}
    (top : machine.stack = word :: stack) :
    ∃ next : Machine, machine.effect? oracle (.pop found.kind.segment found.index) = some next ∧
      next.stack = stack ∧ next.store = found.assign word machine.store := by
  rcases found with ⟨type, _ | _ | _ | _, index⟩ <;>
    exact ⟨_, by simp only [VarKind.segment, Machine.effect?, top]; rfl, rfl, rfl⟩

theorem Carries.assign {name : String} (declared : environment.declared name)
    (leaves : Leaves oracle part ⟨frame, world⟩ word after) :
    Carries oracle code (part ++ environment.pop name) ⟨frame, world⟩ .through
      (environment.assign name word ⟨frame, after⟩) := by
  intro place machine placed same
  obtain ⟨next, reaches, stack, isStore⟩ := leaves.reaches placed.front same
  obtain ⟨found, known⟩ := Option.isSome_iff_exists.1 declared
  obtain ⟨last, acts, onto, isLast⟩ := found.effect?_pop oracle stack
  simp only [Environment.pop, Environment.assign, known] at placed ⊢
  rw [List.length_append, List.length_singleton, ← Nat.add_assoc]
  exact .through (reaches.trans (reaches_effect placed.back.head acts)) onto (isStore ▸ isLast)

/-- The address of the element waits on the stack until the word is known, whatever happens to the
current address of `that` in between. -/
theorem Carries.setElement {name : String} {index value : Expression} {located : World}
    {element : Word} (declared : environment.declared name)
    (validIndex : index.Valid environment.declared) (validValue : value.Valid environment.declared)
    (indexed : index.eval environment oracle frame world = (element, located))
    (valued : value.eval environment oracle frame located = (word, after))
    (numbering : Numbering) :
    Carries oracle code (Statement.code environment numbering (.setElement name index value))
      ⟨frame, world⟩ .through
      ⟨frame, after.setHeap (environment.value frame world name + element) word⟩ := by
  refine .of_yields fun machine same => ?_
  cases same
  have array : machine.Yields oracle (environment.push name) _ _ :=
    Environment.push_yields declared
  have both := array.append (index.code environment) fun next frame reached =>
    Expression.leaves validIndex indexed next (by rw [Machine.store, frame, reached])
  have all := both.add.append (value.code environment) fun next frame reached =>
    Expression.leaves validValue valued next (by rw [Machine.store, frame, reached])
  exact all.setElement

mutual

-- The induction is on the execution, not on the statement: a loop runs its own statement again.

/-- A statement that leads to an ending is carried to it by its code, whatever its labels are
numbered from. -/
theorem Statement.Runs.carries (distinct : (marks code).Nodup) : ∀ {statement : Statement}
    {store last : Store} {ending : Ending}, statement.Runs environment oracle store ending last →
    statement.Valid environment.declared → ∀ numbering,
    Carries oracle code (statement.code environment numbering) store ending last
  | _, _, _, _, .setVariable valued, valid, _ => .assign valid.1 (Expression.leaves valid.2 valued)
  | _, _, _, _, .setElement located valued, valid, numbering =>
    .setElement valid.1 valid.2.1 valid.2.2 located valued numbering
  | _, _, _, _, .ifThen tested holds body, valid, numbering =>
    .choice distinct (Expression.leaves valid.1 tested)
      (fun _ => body.carries distinct valid.2 numbering.choice) (fun zero => absurd zero holds)
  | _, _, _, _, .ifNot tested, valid, _ =>
    .choice distinct (Expression.leaves valid.1 tested) (fun other => absurd rfl other)
      (fun _ => .nil)
  | _, _, _, _, .ifElseThen tested holds body, valid, numbering =>
    .choice distinct (Expression.leaves valid.1 tested)
      (fun _ => body.carries distinct valid.2.1 numbering.choice) (fun zero => absurd zero holds)
  | _, _, _, _, .ifElseNot tested otherwise, valid, numbering =>
    .choice distinct (Expression.leaves valid.1 tested) (fun other => absurd rfl other)
      (fun _ => otherwise.carries distinct valid.2.2 _)
  | _, _, _, _, .loopEnd tested fails, valid, _ =>
    .loop_end distinct (Expression.leaves valid.1 tested) fails
  | _, _, _, _, .loopAgain tested holds once again, valid, numbering =>
    .loop_again distinct (Expression.leaves valid.1 tested) holds
      (once.carries distinct valid.2 numbering.loop) (again.carries distinct valid numbering)
  | _, _, _, _, .loopReturn tested holds once, valid, numbering =>
    .loop_return distinct (Expression.leaves valid.1 tested) holds
      (once.carries distinct valid.2 numbering.loop)
  | .doCall qualifier callee arguments, _, _, _, .doCall called, valid, _ => by
    have isTerm : (Term.call qualifier callee arguments).Valid environment.declared := valid
    exact .of_yields fun machine same => (Term.leaves isTerm called machine same).drop
  | _, _, _, _, .returnNothing, _, _ => .ret .zero
  | _, _, _, _, .returnValue valued, valid, _ => .ret (Expression.leaves valid valued)

theorem Statements.Runs.carries (distinct : (marks code).Nodup) : ∀ {statements : Statements}
    {store last : Store} {ending : Ending}, statements.Runs environment oracle store ending last →
    statements.Valid environment.declared → ∀ numbering,
    Carries oracle code (statements.code environment numbering) store ending last
  | _, _, _, _, .done, _, _ => .nil
  | _, _, _, _, .next front back, valid, numbering =>
    .append (front.carries distinct valid.1 numbering) (back.carries distinct valid.2 _)
  | _, _, _, _, .stop front, valid, numbering =>
    .append_returned _ (front.carries distinct valid.1 numbering)

end

namespace Subroutine

variable {className : String} {classVariables : List Declaration} {subroutine : Subroutine}

theorem declared_environment (className : String) (classVariables : List Declaration)
    (subroutine : Subroutine) : (subroutine.environment className classVariables).declared =
      subroutine.declares className classVariables := by
  funext name
  rw [Environment.declared, environment, Option.isSome_or, Declaration.isSome_find?,
    Declaration.isSome_find?, declares, List.any_append]

/-- What comes before the statements takes hold of the object that they work on. -/
theorem execute?_opening (oracle : Oracle) (classVariables : List Declaration)
    (subroutine : Subroutine) (machine : Machine) :
    ∃ next : Machine, machine.execute? oracle
        (subroutine.opening (Declaration.count .field classVariables)) = some next ∧
      next.stack = machine.stack ∧
      next.store = subroutine.opened classVariables oracle machine.store := by
  unfold opening opened
  cases subroutine.kind <;> exact ⟨_, rfl, rfl, rfl⟩

/-- From its first instruction the code of a subroutine does what the subroutine does. -/
theorem Runs.arrives (valid : subroutine.Valid className classVariables)
    (runs : subroutine.Runs className classVariables oracle machine.store ending last) :
    Arrives oracle (subroutine.code className classVariables) ⟨0, machine⟩
      (subroutine.code className classVariables).length ending last := by
  have placed : Placed (subroutine.code className classVariables) 0
      (subroutine.code className classVariables) := List.prefix_rfl
  have validBody := valid.body
  rw [← declared_environment] at validBody
  have clears := reaches_function oracle machine placed.head
  obtain ⟨next, done, stack, isStore⟩ := subroutine.execute?_opening oracle classVariables
    { machine with frame := machine.frame.cleared (subroutine.localCount className) }
  have opens := reaches_execute placed.tail.front done
  have arrives := Statements.Runs.carries subroutine.nodup_marks runs validBody .zero _ next
    placed.tail.back isStore
  have length : (subroutine.code className classVariables).length =
      0 + 1 + (subroutine.opening (Declaration.count .field classVariables)).length +
        (subroutine.body.code (subroutine.environment className classVariables) .zero).length := by
    rw [code, List.length_cons, List.length_append]
    omega
  rw [length]
  exact arrives.after (clears.trans opens) stack

end Subroutine

end Jack
