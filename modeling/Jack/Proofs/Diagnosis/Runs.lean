import Jack.Proofs.Recognition

namespace Jack.Recognizer

variable {here middle next last : Recognizer} {actions others : List Action} {goal : Goal}
  {goals later : List Goal} {stream : TokenStream} {numbering : Numbering}

/-- What holds where a run begins and is kept by each of its steps holds where it ends. -/
theorem Reaches.last_induction {motive : ∀ last actions, Reaches here actions last → Prop}
    (refl : motive here [] (.refl here))
    (step : ∀ {middle next actions others} (reach : Reaches here actions middle)
      (moved : middle.step = .ok (others, next)), motive middle actions reach →
      motive next (actions ++ others)
        (List.append_nil others ▸ reach.trans (.step moved (.refl next))))
    (reach : Reaches here actions last) : motive last actions reach := by
  induction reach with
  | refl => exact refl
  | @step here next last first rest moved _ ih =>
    refine @ih (fun last actions reach => motive last (first ++ actions) (.step moved reach)) ?_
      fun {_ _ actions others} reach further holds => ?_
    · have begun := step (.refl here) moved refl
      revert begun
      simp
    · have begun := step (.step moved reach) further holds
      revert begun
      simp

/-- If the actions of a run are refused, those of one of its steps are, and those of all steps
before it are carried out. -/
theorem Reaches.exists_refused {limit : Nat} {generator : Generator} {error : CompileError}
    {motive : Recognizer → Generator → Prop}
    (keeps : ∀ {here next actions generator later},
      motive here generator → here.step = .ok (actions, next) →
      (generator.performAll limit actions).2 = .ok later → motive next later)
    (reach : Reaches here actions last) (begun : motive here generator)
    (refused : (generator.performAll limit actions).2 = .error error) :
    ∃ middle next others later, motive middle later ∧ middle.step = .ok (others, next) ∧
      (later.performAll limit others).2 = .error error := by
  induction reach generalizing generator with
  | refl => cases refused
  | @step here next last first rest moved _ ih =>
    rw [Generator.performAll_append] at refused
    rcases performed : generator.performAll limit first with ⟨events, stopped | later⟩
    · rw [performed] at refused
      exact ⟨here, next, first, generator, begun, moved, by rw [performed]; exact refused⟩
    · rw [performed] at refused
      exact ih (keeps begun moved (congrArg Prod.snd performed)) refused

/-- How the first goal is met: it takes the next token, or it does without it. -/
theorem step_cons {taken rest : List Token}
    (moved : (⟨goal :: goals, ⟨taken, rest⟩, numbering⟩ : Recognizer).step = .ok (actions, next)) :
    ∃ step : Goal.Step, actions = step.actions ∧
      ((∃ token behind, rest = token :: behind ∧ goal.take? numbering token = some step ∧
          next = ⟨step.goals ++ goals, ⟨token :: taken, behind⟩, numbering.after token⟩) ∨
        ((∀ token ∈ rest.head?, goal.take? numbering token = none) ∧
          goal.otherwise (TokenStream.line ⟨taken, rest⟩) = .ok step ∧
          next = ⟨step.goals ++ goals, ⟨taken, rest⟩, numbering⟩)) := by
  obtain ⟨goal', goals', taken', rest', numbering', step, rfl, taking | passing⟩ :=
    step_cases moved
  · obtain ⟨token, same, took, rfl⟩ := taking
    cases same
    exact ⟨step, rfl, .inl ⟨token, rest', rfl, took, rfl⟩⟩
  · obtain ⟨_, same, stays, _, rfl⟩ := passing
    cases same
    cases moves : goal.otherwise (TokenStream.line ⟨taken, rest⟩) with
    | error expected =>
      have stopped : take? goal goals ⟨taken, rest⟩ numbering = none := by
        cases rest with
        | nil => rfl
        | cons token rest => exact Option.map_eq_none_iff.2 (stays token rfl)
      simp [Recognizer.step, stopped, moves] at moved
    | ok found =>
      rw [step_pass found stays moves] at moved
      obtain ⟨actions, same⟩ := Prod.mk.inj (Except.ok.inj moved)
      exact ⟨found, actions.symm, .inr ⟨stays, rfl, same.symm⟩⟩

/-- The goals behind the first are not looked at. -/
theorem step_inner
    (moved : (⟨goal :: (goals ++ later), stream, numbering⟩ : Recognizer).step =
      .ok (actions, next)) :
    ∃ inner, next.goals = inner ++ later ∧
      (⟨goal :: goals, stream, numbering⟩ : Recognizer).step =
        .ok (actions, ⟨inner, next.stream, next.numbering⟩) := by
  obtain ⟨taken, rest⟩ := stream
  obtain ⟨step, rfl, ⟨token, behind, rfl, took, rfl⟩ | ⟨stays, moves, rfl⟩⟩ := step_cons moved
  · exact ⟨step.goals ++ goals, (List.append_assoc ..).symm, step_take step took⟩
  · exact ⟨step.goals ++ goals, (List.append_assoc ..).symm, step_pass step stays moves⟩

/-- On the way to a place a step asked for a goal that still waits there, behind others. What the
step put in front of this goal was met as far as the others show. -/
inductive AskedFor (here : Recognizer) (goal : Goal) (front : List Goal) (last : Recognizer) : Prop
  | byStep {first others since : List Action} {middle next : Recognizer} {asked : Goal}
      {tail added rest : List Goal} (reach : Reaches here first middle)
      (asks : middle.goals = asked :: tail) (moved : middle.step = .ok (others, next))
      (leaves : next.goals = added ++ goal :: (rest ++ tail))
      (met : Reaches ⟨added, next.stream, next.numbering⟩ since
        ⟨front, last.stream, last.numbering⟩) : AskedFor here goal front last

/-- A goal that waits and was not there from the beginning was asked for on the way. -/
theorem Reaches.askedFor {front behind : List Goal} (reach : Reaches here actions last)
    (waits : last.goals = front ++ goal :: behind) (new : goal ∉ here.goals) :
    AskedFor here goal front last := by
  induction reach using last_induction generalizing front behind with
  | refl => exact absurd (waits ▸ List.mem_append_right front List.mem_cons_self) new
  | @step middle next actions others reach moved ih =>
    obtain ⟨_ | ⟨asked, tail⟩, ⟨taken, rest⟩, numbering⟩ := middle
    · simp [Recognizer.step] at moved
    obtain ⟨step, whole⟩ : ∃ step : Goal.Step, next.goals = step.goals ++ tail := by
      obtain ⟨step, -, ⟨token, behind, rfl, took, rfl⟩ | ⟨stays, moves, rfl⟩⟩ := step_cons moved
      · exact ⟨step, rfl⟩
      · exact ⟨step, rfl⟩
    rw [whole] at waits
    -- A goal that waited before this step was asked for there, and the step is one more since then.
    have onward (more : List Goal) (isFront : front = step.goals ++ more)
        (isTail : tail = more ++ goal :: behind) : AskedFor here goal front next := by
      subst isTail
      obtain ⟨ran, asks, took, leaves, met⟩ := ih (List.cons_append ..).symm
      obtain ⟨inner, split, further⟩ := step_inner moved
      rw [whole, ← List.append_assoc, List.append_cancel_right_eq, ← isFront] at split
      subst split
      exact ⟨ran, asks, took, leaves, met.trans (.step further (.refl _))⟩
    obtain ⟨more, isFront, isTail⟩ | ⟨own, isStep, isBehind⟩ := List.append_eq_append_iff.1 waits
    · exact onward more isFront isTail
    · cases own with
      | nil => exact onward [] (by simpa using isStep.symm) isBehind.symm
      | cons _ own =>
        obtain ⟨rfl, rfl⟩ := List.cons.inj isBehind
        have leaves : next.goals = front ++ goal :: (own ++ tail) := by
          rw [whole, isStep, List.append_assoc, List.cons_append]
        exact ⟨reach, rfl, moved, leaves, .refl _⟩

end Jack.Recognizer
