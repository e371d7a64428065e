import Jack.Proofs.Output

namespace Jack

/-- Writes instructions up to the first that the sink does not take whole. -/
def Writer.writeAll (writer : Writer) : List Instruction → Writer × Option SinkError
  | [] => (writer, none)
  | instruction :: code =>
    match writer.write instruction with
    | (writer, none) => writer.writeAll code
    | (writer, some error) => (writer, some error)

namespace Compilation

theorem writeOnto_eq (messages : Array Message) (writer : Writer) (events : List Event) :
    (writeOnto messages writer events).2 =
      writer.writeAll (events.filterMap Event.instruction?) := by
  induction events generalizing messages writer with
  | nil => rfl
  | cons event events ih =>
    rw [writeOnto]
    cases emitted : event.instruction? with
    | none =>
      rw [List.filterMap_cons_none emitted]
      exact ih _ writer
    | some instruction =>
      rw [List.filterMap_cons_some emitted, Writer.writeAll]
      rcases wrote : writer.write instruction with ⟨after, _ | error⟩
      · simp only [wrote]
        exact ih _ after
      · simp only [wrote]

/-- How a compilation ends, with what was written and with the result of its code. -/
def ended (written : Writer × Option SinkError) (result : Except CompileError Generator) :
    Except Failure Summary :=
  match written.2, result with
  | some error, _ => .error (.sink error)
  | none, .error error => .error (.refused error)
  | none, .ok generator =>
    match written.1.flush with
    | some error => .error (.sink error)
    | none => .ok ⟨generator.className, generator.subroutines, written.1.count⟩

theorem sink_ofCode (code : ClassCode) (sink : Sink) :
    (ofCode code sink).sink = ((Writer.ofSink sink).writeAll code.instructions).1.sink := by
  have written := writeOnto_eq #[] (.ofSink sink) code.events
  rw [ClassCode.instructions, ← written]
  rfl

theorem result_ofCode (code : ClassCode) (sink : Sink) :
    (ofCode code sink).result =
      ended ((Writer.ofSink sink).writeAll code.instructions) code.result := by
  have written := writeOnto_eq #[] (.ofSink sink) code.events
  rw [ClassCode.instructions, ← written]
  rfl

/-- Two classes with the same code and the same counts make no difference to a sink. -/
theorem ofCode_congr {code other : ClassCode} {generator later : Generator}
    (same : other.instructions = code.instructions) (ends : code.result = .ok generator)
    (endsOther : other.result = .ok later) (className : later.className = generator.className)
    (subroutines : later.subroutines = generator.subroutines) (sink : Sink) :
    (ofCode other sink).result = (ofCode code sink).result ∧
      (ofCode other sink).sink = (ofCode code sink).sink := by
  have sameEnd (written : Writer × Option SinkError) :
      ended written (.ok later) = ended written (.ok generator) := by
    obtain ⟨writer, _ | error⟩ := written
    · simp only [ended, className, subroutines]
    · rfl
  rw [result_ofCode, result_ofCode, sink_ofCode, sink_ofCode, same, ends, endsOther, sameEnd]
  exact ⟨rfl, rfl⟩

end Compilation

end Jack
