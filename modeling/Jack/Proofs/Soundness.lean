import Jack.Proofs.Completeness
import Jack.Proofs.Soundness.Class
import Jack.Proofs.Unambiguous

namespace Jack

/-- What a run takes spells what its goals ask for. -/
theorem Recognizer.Reaches.means {here last : Recognizer} {actions : List Action}
    (reach : Reaches here actions last) (ends : last.goals = []) :
    ∃ tokens, here.stream.rest = tokens ++ last.stream.rest ∧
      Goal.MeansAll tokens last.stream.rest here.goals := by
  induction reach with
  | refl here => exact ⟨[], rfl, by rw [ends]; rfl⟩
  | step moved _ ih =>
    obtain ⟨tokens, rest, means⟩ := ih ends
    obtain ⟨goal, goals, taken, left, numbering, step, -, taking | passing⟩ := step_cases moved
    · obtain ⟨token, rfl, took, rfl⟩ := taking
      obtain ⟨first, last, rfl, own, others⟩ := Goal.MeansAll.append means
      exact ⟨token :: (first ++ last), congrArg (List.cons token) rest, token :: first, last, rfl,
        Goal.means_take took own, others⟩
    · obtain ⟨line, rfl, stays, moves, rfl⟩ := passing
      obtain ⟨first, last, rfl, own, others⟩ := Goal.MeansAll.append means
      have whole : left = first ++ (last ++ _) := rest.trans (List.append_assoc ..)
      exact ⟨first ++ last, rest, first, last, rfl, Goal.means_pass (whole ▸ stays) moves own,
        others⟩

/-- Tokens that are recognised to their end spell a class. -/
theorem exists_classTree {tokens : List Token}
    (recognized : (Recognizer.ofTokens tokens).run.2 = none) :
    ∃ tree : ClassTree, tokens.map Token.terminal = tree.yield := by
  obtain ⟨last, reach, stopped⟩ := Recognizer.reaches_stop (Recognizer.ofTokens tokens)
  rw [recognized, Recognizer.step_eq_error_none] at stopped
  obtain ⟨whole, rest, means⟩ := reach.means stopped.1
  rw [stopped.2, List.append_nil] at rest
  rw [stopped.2, ← rest] at means
  exact Goal.MeansAll.wholeClass means

theorem Compilation.result_of_ofCode {code : ClassCode} {sink : Sink} {summary : Summary}
    (compiled : (ofCode code sink).result = .ok summary) :
    ∃ generator, code.result = .ok generator ∧ generator.subroutines = summary.subroutines := by
  simp only [ofCode] at compiled
  split at compiled
  · cases compiled
  · cases compiled
  · split at compiled <;> cases compiled
    exact ⟨_, ‹_›, rfl⟩

theorem Sink.held_write {sink after : Sink} {bytes : ByteArray}
    (wrote : sink.write bytes = (after, none)) : after.held = sink.held ++ bytes := by
  unfold write at wrote
  split at wrote
  · cases wrote
    rfl
  · dsimp only at wrote
    split at wrote <;> cases wrote
    rfl

theorem Writer.held_write {writer after : Writer} {instruction : Instruction}
    (wrote : writer.write instruction = (after, none)) :
    after.sink.held = writer.sink.held ++ instruction.line.toUTF8 := by
  unfold write at wrote
  split at wrote <;> cases wrote
  exact Sink.held_write ‹_›

/-- What was written without an error is the text of the instructions. -/
theorem Compilation.held_writeOnto {messages : Array Message} {writer : Writer}
    {events : List Event} (clean : (writeOnto messages writer events).2.2 = none) :
    (writeOnto messages writer events).2.1.sink.held = writer.sink.held ++
      (String.join ((events.filterMap Event.instruction?).map Instruction.line)).toUTF8 := by
  induction events generalizing messages writer with
  | nil => exact ByteArray.append_empty.symm
  | cons event events ih =>
    rw [writeOnto] at clean ⊢
    cases emitted : event.instruction? with
    | none =>
      rw [List.filterMap_cons_none emitted]
      simp only [emitted] at clean
      exact ih clean
    | some instruction =>
      rcases wrote : writer.write instruction with ⟨after, _ | error⟩
      · simp only [emitted, wrote] at clean ⊢
        rw [ih clean, Writer.held_write wrote, List.filterMap_cons_some emitted,
          Instruction.toUTF8_lines_cons, ByteArray.append_assoc]
      · simp only [emitted, wrote, reduceCtorEq] at clean

theorem Compilation.held_of_ofCode {code : ClassCode} {sink : Sink} {summary : Summary}
    (compiled : (ofCode code sink).result = .ok summary) :
    (ofCode code sink).sink.held = sink.held ++ code.text.toUTF8 := by
  rcases written : writeOnto #[] (.ofSink sink) code.events with ⟨messages, writer, _ | error⟩
  · have held := held_writeOnto (congrArg (·.2.2) written)
    simp only [ofCode, written] at held ⊢
    exact held
  · simp only [ofCode, written, reduceCtorEq] at compiled

theorem ClassCode.run_of_ofTokens {limit : Nat} {tokens : List Token} {generator : Generator}
    (compiled : (ofTokens limit tokens).result = .ok generator) :
    (Recognizer.ofTokens tokens).run.2 = none ∧ ∃ events,
      Generator.start.performAll limit (Recognizer.ofTokens tokens).run.1 =
        (events, .ok generator) := by
  simp only [ofTokens] at compiled
  split at compiled
  · cases compiled
    exact ⟨‹_›, _, ‹_›⟩
  · cases compiled
  · cases compiled

/-- The class that was compiled. -/
theorem Compilation.exists_tree {limit : Nat} {tokens : List Token} {sink : Sink}
    {summary : Summary} (compiled : (ofTokens limit tokens sink).result = .ok summary) :
    ∃ tree : ClassTree, tokens.map Token.terminal = tree.yield ∧ tree.Valid ∧ tree.depth ≤ limit := by
  obtain ⟨generator, ends, -⟩ := result_of_ofCode compiled
  obtain ⟨recognized, events, done⟩ := ClassCode.run_of_ofTokens ends
  obtain ⟨tree, spelt⟩ := exists_classTree recognized
  obtain ⟨actions, _, _, run, performs, -⟩ :=
    tree.recognized False limit spelt False.elim
  rw [run] at done
  exact ⟨tree, spelt, (performs.of_ok done).1⟩

/-- Whatever is compiled is the yield of one class, from its first token to its last, and this
class meets all that is asked of it. -/
theorem Compilation.exists_unique_tree {limit : Nat} {tokens : List Token} {sink : Sink}
    {summary : Summary} (compiled : (ofTokens limit tokens sink).result = .ok summary) :
    ∃ tree : ClassTree, tokens.map Token.terminal = tree.yield ∧
      (∀ other : ClassTree, tokens.map Token.terminal = other.yield → other = tree) ∧
      tree.Valid ∧ tree.depth ≤ limit := by
  obtain ⟨tree, spelt, valid, within⟩ := exists_tree compiled
  exact ⟨tree, spelt, fun other same => ClassTree.yield_injective (same.symm.trans spelt), valid,
    within⟩

theorem Compilation.exists_unique_tree_counter :
    ∃ tree : ClassTree, (ClassTree.counter.yield.map Terminal.token).map Token.terminal =
        tree.yield ∧
      (∀ other : ClassTree, (ClassTree.counter.yield.map Terminal.token).map Token.terminal =
        other.yield → other = tree) ∧ tree.Valid ∧ tree.depth ≤ 2 := by
  obtain ⟨generator, ends, -⟩ := ClassTree.ofTokens_eq ClassTree.compiles_counter.valid
    ClassTree.compiles_counter.depth ClassTree.counter.speltBy_tokens
  exact exists_unique_tree (ofCode_of_hasRoom ends
    (fun _ limited => absurd limited (Option.not_mem_none _) : Sink.unlimited.HasRoom _) rfl).1

end Jack
