import Jack.Proofs.Refinement

namespace Jack

/-- The code of the class in a source text. -/
def ClassCode.ofSource (limit : Nat) (source : String) : ClassCode :=
  ofTokens limit (Finding.tokens (Finding.ofSource source))

/-- A sink that fails has taken less than all of the bytes. -/
theorem Sink.write_cut {sink after : Sink} {bytes : ByteArray} {error : SinkError}
    (wrote : sink.write bytes = (after, some error)) :
    ∃ part < bytes.size, after.held = sink.held ++ bytes.extract 0 part := by
  unfold write at wrote
  split at wrote
  · cases wrote
  · dsimp only at wrote
    split at wrote <;> cases wrote
    exact ⟨_, Nat.lt_of_not_le ‹_›, rfl⟩

theorem Writer.write_cut {writer after : Writer} {instruction : Instruction} {error : SinkError}
    (wrote : writer.write instruction = (after, some error)) :
    ∃ part < instruction.line.toUTF8.size,
      after.sink.held = writer.sink.held ++ instruction.line.toUTF8.extract 0 part := by
  unfold write at wrote
  split at wrote <;> cases wrote
  exact Sink.write_cut ‹_›

/-- Some instructions are written whole, and then at most a part of the next one. -/
def Sink.Holds (sink : Sink) (front : ByteArray) (instructions : List Instruction) : Prop :=
  ∃ written rest cut, instructions = written ++ rest ∧
    sink.held = front ++ (String.join (written.map Instruction.line)).toUTF8 ++ cut ∧
    (cut = .empty ∨
      ∃ instruction ∈ rest.head?, ∃ room, cut = instruction.line.toUTF8.extract 0 room)

/-- However writing ends, nothing else comes into the sink. -/
theorem Compilation.holds_writeOnto (messages : Array Message) (writer : Writer)
    (events : List Event) :
    (writeOnto messages writer events).2.1.sink.Holds writer.sink.held
      (events.filterMap Event.instruction?) := by
  induction events generalizing messages writer with
  | nil => exact ⟨[], [], .empty, rfl, by simp [writeOnto, ByteArray.append_empty], .inl rfl⟩
  | cons event events ih =>
    rw [writeOnto]
    cases emitted : event.instruction? with
    | none =>
      rw [List.filterMap_cons_none emitted]
      exact ih _ writer
    | some instruction =>
      rw [List.filterMap_cons_some emitted]
      rcases wrote : writer.write instruction with ⟨after, _ | error⟩
      · simp only [wrote]
        obtain ⟨written, rest, cut, isFront, held, isCut⟩ := ih (messages.push event.message) after
        refine ⟨instruction :: written, rest, cut, congrArg _ isFront, ?_, isCut⟩
        rw [Instruction.toUTF8_lines_cons, ← ByteArray.append_assoc, ← Writer.held_write wrote]
        exact held
      · simp only [wrote]
        obtain ⟨room, -, held⟩ := Writer.write_cut wrote
        refine ⟨[], instruction :: _, _, rfl, ?_, .inr ⟨instruction, rfl, room, rfl⟩⟩
        rw [List.map_nil]
        exact held.trans (congrArg (· ++ _) ByteArray.append_empty.symm)

/-- Whether a source text is compiled or not, its sink holds instructions of its code. -/
theorem Compilation.holds_ofSource (limit : Nat) (source : String) (sink : Sink) :
    (ofSource limit source sink).sink.Holds sink.held
      (ClassCode.ofSource limit source).instructions :=
  holds_writeOnto #[] (.ofSink sink) (ClassCode.ofSource limit source).events

/-- The sink has taken the text of some functions and nothing else. They are as many as the summary
counts, and something holds of each of them. -/
structure Compilation.WritesFunctions (limit : Nat) (source : String) (sink : Sink)
    (summary : Summary) (Holds : List Instruction → Prop) : Prop where
  held : (ofSource limit source sink).sink.held =
    sink.held ++ (ClassCode.ofSource limit source).text.toUTF8
  whole : (functions (ClassCode.ofSource limit source).instructions).flatten =
    (ClassCode.ofSource limit source).instructions
  counted : (functions (ClassCode.ofSource limit source).instructions).length =
    summary.subroutines
  each : ∀ part ∈ functions (ClassCode.ofSource limit source).instructions, Holds part

/-- Whatever holds of the code of every valid subroutine holds of every function that is written. -/
theorem Compilation.writesFunctions {limit : Nat} {source : String} {sink : Sink}
    {summary : Summary} {Holds : List Instruction → Prop}
    (compiled : (ofSource limit source sink).result = .ok summary)
    (each : ∀ (className : String) (classVariables : List Declaration) (subroutine : Subroutine),
      subroutine.Valid className classVariables →
      Holds (subroutine.code className classVariables)) :
    WritesFunctions limit source sink summary Holds := by
  obtain ⟨tree, spelt, valid, within⟩ := exists_tree compiled
  obtain ⟨generator, ends, -, subroutines, isCode⟩ :=
    ClassTree.ofTokens_eq valid within ⟨spelt, Finding.wellSpelt_of_ofSource⟩
  obtain ⟨_, same, counted⟩ := result_of_ofCode compiled
  obtain rfl := Except.ok.inj (ends.symm.trans same)
  have parts : functions (ClassCode.ofSource limit source).instructions =
      tree.subroutines.map (Subroutine.code tree.name tree.declarations) :=
    (congrArg functions isCode).trans (Subroutine.functions_code tree.subroutines)
  refine ⟨held_of_ofCode compiled, ?_, ?_, fun part member => ?_⟩
  · rw [parts, ← List.flatMap_def]
    exact isCode.symm
  · rw [parts, List.length_map, ← counted, subroutines]
  · rw [parts] at member
    obtain ⟨subroutine, isOne, rfl⟩ := List.mem_map.1 member
    exact each tree.name tree.declarations subroutine (valid.subroutines subroutine isOne)

/-- Choices and loops inside and behind each other, with ways out of the middle of them. -/
def branchingSource : String :=
  "class Main {
 function int main(int n) {
  while (n) {
   if (n) {let n = n - 1;}
   else {while (~n) {return n;}}
  }
  if (n) {do Output.printInt(Main.main(n - 1)); return 1;}
  return 0;
 }
}"

theorem branchingSource_compiled :
    (Compilation.ofSource 4 branchingSource .unlimited).result = .ok ⟨"Main", 1, 44⟩ := by
  decide +kernel

end Jack
