import Jack.Proofs.Prefix.Completion
import Jack.Proofs.Soundness

namespace Jack

namespace Recognizer

/-- What was taken can be continued to what the goals asked for. Only the goals behind the last
token that was taken matter, since those met after it may have been met for the sake of the next
token. -/
theorem Reaches.viable {here last : Recognizer} {actions : List Action} {first : List Token}
    (reach : Reaches here actions last) (settled : Goal.Settled here.goals)
    (whole : here.stream.rest = first ++ last.stream.rest) :
    ∃ more, Goal.MeansAll (first ++ more) [] here.goals := by
  induction reach generalizing first with
  | refl here =>
    obtain rfl : first = [] := List.self_eq_append_left.1 whole
    exact ⟨_, Goal.means_completion here.goals settled⟩
  | @step here next last _ _ moved _ ih =>
    rcases first with _ | ⟨token, first⟩
    · exact ⟨_, Goal.means_completion here.goals settled⟩
    obtain ⟨goal, goals, taken, left, numbering, step, -, taking | passing⟩ := step_cases moved
    · obtain ⟨token', rfl, took, rfl⟩ := taking
      obtain ⟨rfl, behind⟩ := List.cons_eq_cons.1 whole
      obtain ⟨more, means⟩ := ih (Goal.settled_take took settled) behind
      obtain ⟨front, back, split, own, others⟩ := Goal.MeansAll.append means
      refine ⟨more, token' :: front, back, ?_, Goal.means_take took own, others⟩
      rw [List.cons_append, split, List.cons_append]
    · obtain ⟨line, rfl, stays, moves, rfl⟩ := passing
      obtain ⟨more, means⟩ := ih (Goal.settled_otherwise moves settled) whole
      obtain ⟨front, back, split, own, others⟩ := Goal.MeansAll.append means
      -- The next token is the same as in the run, so the goal does without it here as well.
      have stays' : ∀ next ∈ (front ++ (back ++ [])).head?, goal.take? numbering next = none := by
        intro next head
        rw [List.append_nil, ← split] at head
        refine stays next ?_
        have left_eq : left = token :: (first ++ last.stream.rest) := whole
        rwa [left_eq]
      exact ⟨more, front, back, split, Goal.means_pass stays' moves own, others⟩

/-- What was taken from the beginning of a class can be continued to a class. -/
theorem Reaches.exists_classTree {tokens first : List Token} {last : Recognizer}
    {actions : List Action} (reach : Reaches (ofTokens tokens) actions last)
    (whole : tokens = first ++ last.stream.rest) :
    ∃ (more : List Token) (tree : ClassTree),
      (first ++ more).map Token.terminal = tree.yield := by
  obtain ⟨more, means⟩ := reach.viable Goal.settled_wholeClass whole
  exact ⟨more, Goal.MeansAll.wholeClass means⟩

end Recognizer

end Jack
