import Jack.Proofs.Output

namespace Jack

namespace Generator

variable {limit larger : Nat}

/-- Under a higher limit an action does the same, unless it asks for a level that is refused. -/
theorem perform_of_le (le : limit ≤ larger) (generator : Generator) (action : Action) :
    generator.perform larger action = generator.perform limit action ∨
      ∃ line, generator.perform limit action = ([], .error (.nestingTooDeep line limit)) := by
  cases action with
  | nest line =>
    by_cases deep : limit ≤ generator.depth
    · exact .inr ⟨line, by simp only [perform, if_pos deep, refuse]⟩
    · have fits : ¬larger ≤ generator.depth := by omega
      exact .inl (by simp only [perform, if_neg deep, if_neg fits])
  | _ => exact .inl rfl

/-- Two runs under different limits stay together up to the first level that is refused. -/
theorem performAll_of_le (le : limit ≤ larger) (generator : Generator) (actions : List Action) :
    generator.performAll larger actions = generator.performAll limit actions ∨
      (∃ line, (generator.performAll limit actions).2 = .error (.nestingTooDeep line limit)) ∧
        (generator.performAll limit actions).1 <+: (generator.performAll larger actions).1 := by
  -- As long as no level is refused, both runs come to the same generator.
  induction actions generalizing generator with
  | nil => exact .inl rfl
  | cons action actions ih =>
    rw [performAll_cons, performAll_cons]
    obtain same | ⟨line, refused⟩ := generator.perform_of_le le action
    · rw [same]
      rcases generator.perform limit action with ⟨events, error | later⟩
      · exact .inl rfl
      · obtain rest | ⟨tooDeep, front⟩ := ih later
        · exact .inl (by simp only [rest])
        · exact .inr ⟨tooDeep, (List.prefix_append_right_inj events).2 front⟩
    · rw [refused]
      exact .inr ⟨⟨line, rfl⟩, List.nil_prefix⟩

end Generator

/-- Recognition does not depend on the limit, so the code of a class does only where a level is
refused. -/
theorem ClassCode.ofTokens_of_le {limit larger : Nat} (le : limit ≤ larger) (tokens : List Token) :
    ofTokens larger tokens = ofTokens limit tokens ∨
      (∃ line, (ofTokens limit tokens).result = .error (.nestingTooDeep line limit)) ∧
        (ofTokens limit tokens).events <+: (ofTokens larger tokens).events := by
  rcases recognized : (Recognizer.ofTokens tokens).run with ⟨actions, failure⟩
  obtain same | ⟨⟨line, tooDeep⟩, front⟩ := Generator.start.performAll_of_le le actions
  · exact .inl (by simp only [ofTokens, recognized, same])
  · rcases low : Generator.start.performAll limit actions with ⟨events, result⟩
    rcases high : Generator.start.performAll larger actions with ⟨others, ended⟩
    rw [low] at tooDeep front
    rw [high] at front
    obtain rfl : result = .error (.nestingTooDeep line limit) := tooDeep
    have code : ofTokens limit tokens = ⟨events, .error (.nestingTooDeep line limit)⟩ := by
      simp only [ofTokens, recognized, low]
    have longer : (ofTokens larger tokens).events = others := by
      simp only [ofTokens, recognized, high]
      cases ended <;> cases failure <;> rfl
    rw [code, longer]
    exact .inr ⟨⟨line, rfl⟩, front⟩

namespace Compilation

/-- Writing goes on behind a front of the events unless it failed there. -/
theorem writeOnto_append (messages : Array Message) (writer : Writer) (first last : List Event) :
    writeOnto messages writer (first ++ last) =
      match writeOnto messages writer first with
      | (messages, writer, none) => writeOnto messages writer last
      | (messages, writer, some error) => (messages, writer, some error) := by
  induction first generalizing messages writer with
  | nil => rfl
  | cons event first ih =>
    rw [List.cons_append, writeOnto, writeOnto]
    cases event.instruction? with
    | none => exact ih _ writer
    | some instruction =>
      rcases wrote : writer.write instruction with ⟨after, _ | error⟩
      · simp only [wrote]
        exact ih _ after
      · simp only [wrote]

theorem exists_held_writeOnto (messages : Array Message) (writer : Writer) (events : List Event) :
    ∃ more, (writeOnto messages writer events).2.1.sink.held = writer.sink.held ++ more := by
  obtain ⟨written, rest, cut, -, held, -⟩ := holds_writeOnto messages writer events
  exact ⟨_, held.trans ByteArray.append_assoc⟩

/-- Where a front of the code ends in an error, the sink takes this front and more behind it, or the
sink fails before the end of this front. -/
theorem ofCode_of_prefix {code longer : ClassCode} {error : CompileError}
    (refused : code.result = .error error) (front : code.events <+: longer.events) (sink : Sink) :
    ofCode longer sink = ofCode code sink ∨
      (ofCode code sink).result = .error (.refused error) ∧
        ∃ more, (ofCode longer sink).sink.held = (ofCode code sink).sink.held ++ more := by
  obtain ⟨rest, whole⟩ := front
  have both := writeOnto_append #[] (.ofSink sink) code.events rest
  rw [whole] at both
  rcases written : writeOnto #[] (.ofSink sink) code.events with ⟨messages, writer, _ | failed⟩
  · obtain ⟨more, held⟩ := exists_held_writeOnto messages writer rest
    rw [written] at both
    refine .inr ⟨by simp only [ofCode, written, refused], more, ?_⟩
    simp only [ofCode, written, both]
    exact held
  · rw [written] at both
    exact .inl (by simp only [ofCode, written, both])

/-- Whether a compilation ended since something nests deeper than its limit. -/
def TooDeep (limit : Nat) (compilation : Compilation) : Prop :=
  ∃ line, compilation.result = .error (.refused (.nestingTooDeep line limit))

theorem ofTokens_of_le {limit larger : Nat} (le : limit ≤ larger) (tokens : List Token)
    (sink : Sink) :
    ofTokens larger tokens sink = ofTokens limit tokens sink ∨
      TooDeep limit (ofTokens limit tokens sink) ∧
        ∃ more, (ofTokens larger tokens sink).sink.held =
          (ofTokens limit tokens sink).sink.held ++ more := by
  obtain same | ⟨⟨line, refused⟩, front⟩ := ClassCode.ofTokens_of_le le tokens
  · exact .inl (by rw [ofTokens, ofTokens, same])
  · obtain same | ⟨result, held⟩ := ofCode_of_prefix refused front sink
    · exact .inl same
    · exact .inr ⟨⟨line, result⟩, held⟩

end Compilation

/-- Tokens that spell a valid class have the same code under all limits that are not below its
depth. -/
theorem ClassTree.ofTokens_of_depth_le {limit other : Nat} {tree : ClassTree} {tokens : List Token}
    (valid : tree.Valid) (spelt : tokens.map Token.terminal = tree.yield)
    (within : tree.depth ≤ limit) (withinOther : tree.depth ≤ other) :
    ClassCode.ofTokens other tokens = ClassCode.ofTokens limit tokens := by
  have ends {limit : Nat} (within : tree.depth ≤ limit) (line : Nat) :
      (ClassCode.ofTokens limit tokens).result ≠ .error (.nestingTooDeep line limit) := by
    obtain ⟨actions, events, later, run, performs, -⟩ :=
      tree.recognized False limit spelt False.elim
    simp only [ClassCode.ofTokens, run, performs.success ⟨valid, within⟩, ne_eq, reduceCtorEq,
      not_false_eq_true]
  obtain le | le := Nat.le_total limit other
  · obtain same | ⟨⟨line, tooDeep⟩, -⟩ := ClassCode.ofTokens_of_le le tokens
    · exact same
    · exact absurd tooDeep (ends within line)
  · obtain same | ⟨⟨line, tooDeep⟩, -⟩ := ClassCode.ofTokens_of_le le tokens
    · exact same.symm
    · exact absurd tooDeep (ends withinOther line)

/-- The limit on the depth is a threshold. A run that is not refused for its depth is the same under
every higher limit, and from one that is, what was written stays a front of what is written then. A
class that is compiled under some limit is compiled in this way under all limits from its own depth
on, and is refused for its depth under all others. -/
theorem Compilation.ofTokens_threshold (tokens : List Token) (sink : Sink) :
    (∀ limit larger, limit ≤ larger →
      (¬TooDeep limit (ofTokens limit tokens sink) →
        ofTokens larger tokens sink = ofTokens limit tokens sink) ∧
      (TooDeep limit (ofTokens limit tokens sink) →
        ∃ more, (ofTokens larger tokens sink).sink.held =
          (ofTokens limit tokens sink).sink.held ++ more)) ∧
    ∀ limit summary, (ofTokens limit tokens sink).result = .ok summary →
      ∃ tree : ClassTree, tokens.map Token.terminal = tree.yield ∧ ∀ other,
        (tree.depth ≤ other → ofTokens other tokens sink = ofTokens limit tokens sink) ∧
        (other < tree.depth → TooDeep other (ofTokens other tokens sink)) := by
  constructor
  · intro limit larger le
    obtain same | ⟨tooDeep, held⟩ := ofTokens_of_le le tokens sink
    · exact ⟨fun _ => same, fun _ => ⟨.empty, by rw [same, ByteArray.append_empty]⟩⟩
    · exact ⟨fun fits => absurd tooDeep fits, fun _ => held⟩
  · intro limit summary compiled
    obtain ⟨tree, spelt, valid, within⟩ := exists_tree compiled
    refine ⟨tree, spelt, fun other => ⟨fun withinOther => ?_, fun beyond => ?_⟩⟩
    · rw [ofTokens, ofTokens, tree.ofTokens_of_depth_le valid spelt within withinOther]
    · have below : other ≤ limit := by omega
      obtain same | ⟨tooDeep, -⟩ := ofTokens_of_le below tokens sink
      · -- Otherwise the class would be compiled under a limit below its depth.
        rw [same] at compiled
        obtain ⟨found, isFound, -, within⟩ := exists_tree compiled
        obtain rfl : found = tree := ClassTree.yield_injective (isFound.symm.trans spelt)
        omega
      · exact tooDeep

/-- The loop of the counter is one level deep, and the terms in it are another. -/
theorem Compilation.ofTokens_threshold_counter :
    (ofTokens 2 (ClassTree.counter.yield.map Terminal.token) .unlimited).result =
        .ok ⟨"Counter", 1, 19⟩ ∧
      ∀ other,
        (2 ≤ other → ofTokens other (ClassTree.counter.yield.map Terminal.token) .unlimited =
          ofTokens 2 (ClassTree.counter.yield.map Terminal.token) .unlimited) ∧
        (other < 2 → TooDeep other
          (ofTokens other (ClassTree.counter.yield.map Terminal.token) .unlimited)) := by
  have compiled : (ofTokens 2 (ClassTree.counter.yield.map Terminal.token) .unlimited).result =
      .ok ⟨"Counter", 1, 19⟩ := by
    decide +kernel
  obtain ⟨tree, spelt, threshold⟩ := (ofTokens_threshold _ _).2 2 _ compiled
  obtain rfl : tree = .counter :=
    ClassTree.yield_injective (spelt.symm.trans ClassTree.counter.speltBy_tokens.yield)
  have depth : ClassTree.counter.depth = 2 := by decide
  rw [depth] at threshold
  exact ⟨compiled, threshold⟩

end Jack
