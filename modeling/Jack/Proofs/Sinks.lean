import Jack.Proofs.Soundness

namespace Jack

section Bytes

variable {text bytes : ByteArray} {limit : Nat}

theorem extract_of_size_le (within : bytes.size ≤ limit) : bytes.extract 0 limit = bytes := by
  rw [← Nat.max_eq_left within]
  exact ByteArray.extract_zero_max_size

/-- The front of two texts ends in the first or in the second. -/
theorem extract_zero_append : (text ++ bytes).extract 0 limit =
    text.extract 0 limit ++ bytes.extract 0 (limit - text.size) := by
  rw [ByteArray.extract_append, Nat.zero_sub]

end Bytes

/-- What does not fit is cut off behind the last byte for which there is room. -/
theorem Sink.write_of_full {sink : Sink} {size : Nat} {bytes : ByteArray}
    (limited : sink.capacity = some size) (within : sink.held.size ≤ size)
    (exceeds : size < sink.held.size + bytes.size) :
    sink.write bytes =
      ({ sink with held := (sink.held ++ bytes).extract 0 size }, some .full) := by
  have noRoom : ¬bytes.size ≤ size - sink.held.size := by omega
  have cut : (sink.held ++ bytes).extract 0 size =
      sink.held ++ bytes.extract 0 (size - sink.held.size) := by
    rw [extract_zero_append, extract_of_size_le within]
  simp only [write, limited, if_neg noRoom, cut]

namespace Compilation

/-- Writing stops at the first line for which there is not enough room, with what fits of it. -/
theorem writeOnto_of_full (messages : Array Message) {events : List Event} {sink : Sink}
    (count : Nat) {size : Nat} (limited : sink.capacity = some size)
    (within : sink.held.size ≤ size)
    (exceeds : size < sink.held.size +
      (String.join ((events.filterMap Event.instruction?).map Instruction.line)).toUTF8.size) :
    (writeOnto messages ⟨sink, count⟩ events).2.1.sink.held = (sink.held ++
        (String.join ((events.filterMap Event.instruction?).map Instruction.line)).toUTF8).extract 0
          size ∧
      (writeOnto messages ⟨sink, count⟩ events).2.2 = some .full := by
  induction events generalizing messages sink count with
  | nil =>
    have nothing : size < sink.held.size + ByteArray.empty.size := exceeds
    have empty : ByteArray.empty.size = 0 := rfl
    omega
  | cons event events ih =>
    rw [writeOnto]
    cases emitted : event.instruction? with
    | none =>
      rw [List.filterMap_cons_none emitted] at exceeds ⊢
      exact ih _ count limited within exceeds
    | some instruction =>
      rw [List.filterMap_cons_some emitted, Instruction.toUTF8_lines_cons,
        ← ByteArray.append_assoc]
      rw [List.filterMap_cons_some emitted, Instruction.toUTF8_lines_cons, ByteArray.size_append,
        ← Nat.add_assoc, ← ByteArray.size_append] at exceeds
      by_cases fits : sink.held.size + instruction.line.toUTF8.size ≤ size
      · have room : sink.HasRoom instruction.line.toUTF8.size := by
          intro capacity isCapacity
          have same := Option.some.inj (limited.symm.trans isCapacity)
          omega
        have held : (sink.held ++ instruction.line.toUTF8).size ≤ size := by
          rw [ByteArray.size_append]
          exact fits
        simp only [Writer.write, room.write]
        exact ih _ (count + 1) limited held exceeds
      · have cut := Sink.write_of_full limited within (Nat.lt_of_not_le fits)
        -- Nothing of the lines behind this one can fit either.
        have noRoom : size - (sink.held ++ instruction.line.toUTF8).size = 0 := by
          rw [ByteArray.size_append]
          omega
        rw [extract_zero_append, noRoom, ByteArray.extract_same, ByteArray.append_empty]
        simp only [Writer.write, cut, and_self]

/-- How what comes of a compilation depends on the sink that it writes into. -/
structure FollowsSink (compile : Sink → Compilation) : Prop where
  /-- A sink that takes everything receives whole lines. -/
  lines : ∃ code : List Instruction,
    (compile .unlimited).sink.held = (String.join (code.map Instruction.line)).toUTF8
  /-- A sink with enough room holds the same, with the same result. -/
  room : ∀ capacity : Option Nat, (∀ size ∈ capacity, (compile .unlimited).sink.held.size ≤ size) →
    (compile ⟨capacity, false, .empty⟩).sink.held = (compile .unlimited).sink.held ∧
      (compile ⟨capacity, false, .empty⟩).result = (compile .unlimited).result
  /-- A sink without enough room holds as much as it takes, and its error is the result. -/
  full : ∀ (size : Nat) (flushFails : Bool), size < (compile .unlimited).sink.held.size →
    (compile ⟨some size, flushFails, .empty⟩).sink.held =
        (compile .unlimited).sink.held.extract 0 size ∧
      (compile ⟨some size, flushFails, .empty⟩).result = .error (.sink .full)
  /-- A sink that only fails to be flushed holds the same, and its error takes the place of a
  summary, but not of another error. -/
  flush : ∀ capacity : Option Nat, (∀ size ∈ capacity, (compile .unlimited).sink.held.size ≤ size) →
    (compile ⟨capacity, true, .empty⟩).sink.held = (compile .unlimited).sink.held ∧
      (compile ⟨capacity, true, .empty⟩).result =
        match (compile .unlimited).result with
        | .ok _ => .error (.sink .flush)
        | .error failure => .error failure

/-- Without enough room it does not matter how the code ends. -/
theorem ofCode_of_full (code : ClassCode) {size : Nat} (flushFails : Bool)
    (exceeds : size < code.text.toUTF8.size) :
    (ofCode code ⟨some size, flushFails, .empty⟩).sink.held = code.text.toUTF8.extract 0 size ∧
      (ofCode code ⟨some size, flushFails, .empty⟩).result = .error (.sink .full) := by
  let sink : Sink := ⟨some size, flushFails, .empty⟩
  have within : sink.held.size ≤ size := Nat.zero_le size
  have beyond : size < sink.held.size + code.text.toUTF8.size := by
    have empty : sink.held.size = 0 := rfl
    omega
  obtain ⟨held, failed⟩ := writeOnto_of_full #[] 0 rfl within beyond
  rcases written : writeOnto #[] ⟨sink, 0⟩ code.events with ⟨messages, writer, error⟩
  rw [written] at held failed
  obtain rfl : error = some .full := failed
  have front : sink.held ++ code.text.toUTF8 = code.text.toUTF8 := ByteArray.empty_append
  have text : writer.sink.held = code.text.toUTF8.extract 0 size := by
    rw [← front]
    exact held
  have outcome : ofCode code sink = ⟨messages.toList, writer.sink, .error (.sink .full)⟩ := by
    simp only [ofCode, Writer.ofSink, written]
  rw [outcome]
  exact ⟨text, rfl⟩

theorem followsSink_ofCode (code : ClassCode) : FollowsSink (ofCode code) := by
  have unlimited : Sink.unlimited.HasRoom code.text.toUTF8.size :=
    fun _ limited => absurd limited (Option.not_mem_none _)
  obtain ⟨holds, result⟩ := ofCode_eq_of_hasRoom code unlimited
  have whole : (ofCode code .unlimited).sink.held = code.text.toUTF8 :=
    (congrArg Sink.held holds).trans ByteArray.empty_append
  have same (capacity : Option Nat) (flushFails : Bool)
      (enough : ∀ size ∈ capacity, (ofCode code .unlimited).sink.held.size ≤ size) :
      (ofCode code ⟨capacity, flushFails, .empty⟩).sink.held = (ofCode code .unlimited).sink.held ∧
        (ofCode code ⟨capacity, flushFails, .empty⟩).result = ending code flushFails := by
    have room : Sink.HasRoom ⟨capacity, flushFails, .empty⟩ code.text.toUTF8.size := by
      intro size isSize
      have fits := enough size isSize
      rw [whole] at fits
      exact (Nat.zero_add _).symm ▸ fits
    obtain ⟨holdsHere, resultHere⟩ := ofCode_eq_of_hasRoom code room
    exact ⟨((congrArg Sink.held holdsHere).trans ByteArray.empty_append).trans whole.symm,
      resultHere⟩
  refine ⟨⟨code.instructions, whole⟩, fun capacity enough => ?_, fun size flushFails exceeds => ?_,
    fun capacity enough => ?_⟩
  · obtain ⟨held, resultHere⟩ := same capacity false enough
    exact ⟨held, resultHere.trans result.symm⟩
  · rw [whole] at exceeds ⊢
    exact ofCode_of_full code flushFails exceeds
  · obtain ⟨held, resultHere⟩ := same capacity true enough
    refine ⟨held, ?_⟩
    rw [resultHere, result]
    unfold ending
    cases code.result with
    | error error => rfl
    | ok generator => rfl

/-- Whatever a sink does, tokens and source texts leave in it the front of what they leave in a sink
that takes everything, and they end with the first error on the way. -/
theorem ofTokens_followsSink (limit : Nat) :
    (∀ tokens, FollowsSink (ofTokens limit tokens)) ∧
      ∀ source, FollowsSink (ofSource limit source) := by
  have follows (tokens : List Token) : FollowsSink (ofTokens limit tokens) :=
    followsSink_ofCode (.ofTokens limit tokens)
  refine ⟨follows, fun source => ?_⟩
  obtain ⟨lines, room, full, flush⟩ := follows (Finding.tokens (Finding.ofSource source))
  exact ⟨lines, room, full, flush⟩

end Compilation

end Jack
