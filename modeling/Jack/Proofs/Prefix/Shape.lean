import Jack.Proofs.Recognition

namespace Jack

/-- A token that has a kind and nothing else. -/
def Token.bare (kind : Token.Kind) : Token :=
  ⟨kind, "", none, ⟨0, 0⟩, 1, 1, 1⟩

namespace Goal

/-- A goal without what it carries. -/
def shape : Goal → Goal
  | .perform _ => .perform []
  | .variable kind _ => .variable kind ""
  | .moreVariables kind _ => .moreVariables kind ""
  | .parameterName _ => .parameterName ""
  | .letTarget _ => .letTarget (.bare .identifier)
  | .nameTail _ => .nameTail (.bare .identifier)
  | .callTail _ => .callTail (.bare .identifier)
  | .calleeName _ => .calleeName (.bare .identifier)
  | .openCall _ => .openCall ⟨none, .bare .identifier⟩
  | .arguments _ => .arguments ⟨none, .bare .identifier⟩
  | .moreArguments .. => .moreArguments ⟨none, .bare .identifier⟩ 0
  | goal => goal

def shapes (goals : List Goal) : List Goal :=
  goals.map shape

variable {goal other : Goal} {token token' name name' : Token} {numbering numbering' : Numbering}
  {step : Step}

theorem takeCall?_shape (same : token.kind = token'.kind) :
    (takeCall? token name).map (fun step => shapes step.goals) =
      (takeCall? token' name').map (fun step => shapes step.goals) := by
  unfold takeCall?
  rw [same]
  split <;> rfl

theorem take?_shape (goal : Goal) (numbering numbering' : Numbering)
    (same : token.kind = token'.kind) :
    (goal.take? numbering token).map (fun step => shapes step.goals) =
      (goal.shape.take? numbering' token').map (fun step => shapes step.goals) := by
  cases goal <;> simp only [take?, shape, same]
  case statements =>
    unfold takeStatement?
    rw [same]
    split <;> rfl
  case term =>
    unfold takeTerm?
    rw [same]
    split <;> rfl
  case callTail => exact takeCall?_shape same
  case nameTail =>
    split
    · rfl
    · exact takeCall?_shape same
  all_goals
    repeat' split
  all_goals
    rfl

theorem otherwise_shape (goal : Goal) (line line' : Nat) :
    (goal.otherwise line).toOption.map (fun step => shapes step.goals) =
      (goal.shape.otherwise line').toOption.map (fun step => shapes step.goals) := by
  cases goal <;> rfl

/-- Goals of one shape do the same with tokens of one kind. -/
theorem take?_alike (numbering numbering' : Numbering) (alike : goal.shape = other.shape)
    (same : token.kind = token'.kind) :
    (goal.take? numbering token).map (fun step => shapes step.goals) =
      (other.take? numbering' token').map (fun step => shapes step.goals) := by
  rw [take?_shape goal numbering numbering rfl, alike,
    ← take?_shape other numbering' numbering same.symm]

theorem otherwise_alike (alike : goal.shape = other.shape) (line line' : Nat) :
    (goal.otherwise line).toOption.map (fun step => shapes step.goals) =
      (other.otherwise line').toOption.map (fun step => shapes step.goals) := by
  rw [otherwise_shape goal line line, alike, ← otherwise_shape other line' line]

theorem shapes_append {first first' last last' : List Goal} (front : shapes first = shapes first')
    (back : shapes last = shapes last') : shapes (first ++ last) = shapes (first' ++ last') := by
  simp only [shapes, List.map_append] at front back ⊢
  rw [front, back]

end Goal

namespace Recognizer

/-- Two recognizers that are asked for the same and see tokens of one kind next. -/
structure Alike (here there : Recognizer) : Prop where
  goals : Goal.shapes here.goals = Goal.shapes there.goals
  next : here.stream.rest.head?.map Token.kind = there.stream.rest.head?.map Token.kind

variable {here there next last : Recognizer} {actions : List Action}

/-- Recognizers that are alike both take a token, or both do without it. -/
theorem Alike.step (alike : Alike here there) (moved : here.step = .ok (actions, next)) :
    ∃ actions' next', there.step = .ok (actions', next') ∧
      Goal.shapes next.goals = Goal.shapes next'.goals ∧
      ((∃ token token', here.stream.rest = token :: next.stream.rest ∧
          there.stream.rest = token' :: next'.stream.rest) ∨
        (next.stream.rest = here.stream.rest ∧ next'.stream.rest = there.stream.rest)) := by
  obtain ⟨goals, ends⟩ := alike
  obtain ⟨asked, ⟨taken', rest'⟩, numbering'⟩ := there
  obtain ⟨goal, more, taken, rest, numbering, step, -, taking | passing⟩ := step_cases moved
  · obtain ⟨token, rfl, took, rfl⟩ := taking
    obtain ⟨other, others, rfl, shape, shapes⟩ := List.map_eq_cons_iff.1 goals.symm
    obtain ⟨token', head, kind⟩ := Option.map_eq_some_iff.1 ends.symm
    obtain ⟨rest', rfl⟩ := List.head?_eq_some_iff.1 head
    have same := Goal.take?_alike numbering numbering' shape.symm kind.symm
    rw [took] at same
    obtain ⟨step', took', goals'⟩ := Option.map_eq_some_iff.1 same.symm
    exact ⟨_, _, step_take step' took', Goal.shapes_append goals'.symm shapes.symm,
      .inl ⟨token, token', rfl, rfl⟩⟩
  · obtain ⟨line, rfl, stays, moves, rfl⟩ := passing
    obtain ⟨other, others, rfl, shape, shapes⟩ := List.map_eq_cons_iff.1 goals.symm
    have stays' : ∀ token' ∈ rest'.head?, other.take? numbering' token' = none := by
      intro token' head
      have kinds : rest.head?.map Token.kind = some token'.kind := ends.trans (congrArg _ head)
      obtain ⟨token, head', kind⟩ := Option.map_eq_some_iff.1 kinds
      have same := Goal.take?_alike numbering numbering' shape.symm kind
      rw [stays token head'] at same
      exact Option.map_eq_none_iff.1 same.symm
    have same := Goal.otherwise_alike shape.symm line (TokenStream.line ⟨taken', rest'⟩)
    rw [moves] at same
    obtain ⟨step', left, goals'⟩ := Option.map_eq_some_iff.1 same.symm
    cases moves' : other.otherwise (TokenStream.line ⟨taken', rest'⟩) with
    | error expected => rw [moves'] at left; cases left
    | ok found =>
      rw [moves'] at left
      obtain rfl : found = step' := Option.some.inj left
      exact ⟨_, _, step_pass found stays' moves', Goal.shapes_append goals'.symm shapes.symm,
        .inr ⟨rfl, rfl⟩⟩

/-- Recognizers that are alike stop both. -/
theorem Alike.stops (alike : Alike here there) {error : SyntaxError}
    (stopped : here.step = .error (some error)) : ∃ error', there.step = .error (some error') := by
  cases moved : there.step with
  | ok found =>
    obtain ⟨_, _, moved', -⟩ := (Alike.mk alike.goals.symm alike.next.symm).step moved
    rw [stopped] at moved'
    cases moved'
  | error error' =>
    cases error' with
    | some error' => exact ⟨error', rfl⟩
    | none =>
      obtain ⟨noGoals, noTokens⟩ := step_eq_error_none.1 moved
      have goals := alike.goals
      have next := alike.next
      rw [noGoals] at goals
      rw [noTokens] at next
      have ended : here.step = .error none := step_eq_error_none.2
        ⟨List.map_eq_nil_iff.1 goals, List.head?_eq_none_iff.1 (Option.map_eq_none_iff.1 next)⟩
      rw [stopped] at ended
      cases ended

/-- A run takes tokens from the front of those that are left. -/
theorem Reaches.taken (reach : Reaches here actions last) :
    ∃ first, here.stream.rest = first ++ last.stream.rest ∧
      last.stream.taken = first.reverse ++ here.stream.taken := by
  induction reach with
  | refl => exact ⟨[], rfl, rfl⟩
  | step moved _ ih =>
    obtain ⟨first, whole, taken⟩ := ih
    obtain ⟨goal, goals, before, left, numbering, step, -, taking | passing⟩ := step_cases moved
    · obtain ⟨token, rfl, -, rfl⟩ := taking
      refine ⟨token :: first, congrArg (List.cons token) whole, ?_⟩
      rw [taken, List.reverse_cons, List.append_assoc]
      rfl
    · obtain ⟨line, rfl, -, -, rfl⟩ := passing
      exact ⟨first, whole, taken⟩

/-- Tokens of the same kinds are taken in the same way, as far as they are the same and one token
further. -/
theorem Reaches.mirrored {first first' rest' : List Token} (reach : Reaches here actions last)
    (goals : Goal.shapes here.goals = Goal.shapes there.goals)
    (whole : here.stream.rest = first ++ last.stream.rest)
    (whole' : there.stream.rest = first' ++ rest')
    (kinds : first.map Token.kind = first'.map Token.kind)
    (next : last.stream.rest.head?.map Token.kind = rest'.head?.map Token.kind) :
    ∃ actions' last', Reaches there actions' last' ∧ last.Alike last' := by
  induction reach generalizing there first first' with
  | refl here =>
    obtain rfl : first = [] := List.self_eq_append_left.1 whole
    obtain rfl : first' = [] := List.map_eq_nil_iff.1 kinds.symm
    exact ⟨[], there, .refl there, goals, next.trans (by rw [whole']; rfl)⟩
  | @step here middle last _ _ moved reach ih =>
    have heads :
        here.stream.rest.head?.map Token.kind = there.stream.rest.head?.map Token.kind := by
      rw [whole, whole']
      cases first with
      | nil =>
        obtain rfl : first' = [] := List.map_eq_nil_iff.1 kinds.symm
        exact next
      | cons token first =>
        obtain ⟨token', first', rfl, kind, -⟩ := List.map_eq_cons_iff.1 kinds.symm
        exact congrArg some kind.symm
    obtain ⟨actions', middle', moved', goals', taking | passing⟩ :=
      (Alike.mk goals heads).step moved
    · obtain ⟨token, token', isRest, isRest'⟩ := taking
      obtain ⟨behind, split, -⟩ := reach.taken
      -- A token was taken, so there is one to be taken.
      have isFirst : first = token :: behind := by
        have both : first ++ last.stream.rest = token :: behind ++ last.stream.rest := by
          rw [← whole, isRest, split]
          rfl
        exact List.append_cancel_right both
      subst isFirst
      obtain ⟨head, behind', rfl, -, kinds'⟩ := List.map_eq_cons_iff.1 kinds.symm
      have split' : middle'.stream.rest = behind' ++ rest' :=
        (List.cons_eq_cons.1 (isRest'.symm.trans whole')).2
      obtain ⟨actions'', last', reach', alike⟩ := ih goals' split split' kinds'.symm next
      exact ⟨_, last', .step moved' reach', alike⟩
    · obtain ⟨same, same'⟩ := passing
      obtain ⟨actions'', last', reach', alike⟩ :=
        ih goals' (same.trans whole) (same'.trans whole') kinds next
      exact ⟨_, last', .step moved' reach', alike⟩

end Recognizer

end Jack
