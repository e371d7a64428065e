import Jack.Proofs.Journal
import Jack.Proofs.Sinks

namespace Jack

namespace Compilation

variable {messages : Array Message} {writer : Writer} {events : List Event} {error : SinkError}

/-- Whatever is written is reported, and so are the notes between the instructions. -/
theorem messages_writeOnto (clean : (writeOnto messages writer events).2.2 = none) :
    (writeOnto messages writer events).1.toList = messages.toList ++ events.map Event.message := by
  induction events generalizing messages writer with
  | nil => exact (List.append_nil _).symm
  | cons event events ih =>
    rw [writeOnto] at clean ⊢
    rw [List.map_cons, List.append_cons, ← Array.toList_push]
    cases emitted : event.instruction? with
    | none =>
      simp only [emitted] at clean ⊢
      exact ih clean
    | some instruction =>
      rcases wrote : writer.write instruction with ⟨after, _ | error⟩ <;>
        simp only [emitted, wrote] at clean ⊢
      · exact ih clean
      · cases clean

/-- Where writing fails, the instruction that did not fit is the last that is reported. -/
theorem writeOnto_cut (failed : (writeOnto messages writer events).2.2 = some error) :
    ∃ front instruction behind, events = front ++ .instruction instruction :: behind ∧
      (writeOnto messages writer events).1.toList =
        messages.toList ++ (front ++ [.instruction instruction]).map Event.message ∧
      ∃ part < instruction.line.toUTF8.size,
        (writeOnto messages writer events).2.1.sink.held = writer.sink.held ++
          (String.join ((front.filterMap Event.instruction?).map Instruction.line)).toUTF8 ++
            instruction.line.toUTF8.extract 0 part := by
  induction events generalizing messages writer with
  | nil => cases failed
  | cons event events ih =>
    rw [writeOnto] at failed ⊢
    cases emitted : event.instruction? with
    | none =>
      simp only [emitted] at failed ⊢
      obtain ⟨front, instruction, behind, rfl, reported, cut⟩ := ih failed
      refine ⟨event :: front, instruction, behind, rfl, ?_, ?_⟩
      · rw [reported, Array.toList_push, ← List.append_cons]
        rfl
      · rwa [List.filterMap_cons_none emitted]
    | some instruction =>
      obtain rfl : event = .instruction instruction := by
        cases event <;> cases emitted
        rfl
      rcases wrote : writer.write instruction with ⟨after, _ | error⟩ <;>
        simp only [emitted, wrote] at failed ⊢
      · obtain ⟨front, last, behind, rfl, reported, part, small, held⟩ := ih failed
        refine ⟨.instruction instruction :: front, last, behind, rfl, ?_, part, small, ?_⟩
        · rw [reported, Array.toList_push, ← List.append_cons]
          rfl
        · rw [held, Writer.held_write wrote, List.filterMap_cons_some emitted,
            Instruction.toUTF8_lines_cons, ← ByteArray.append_assoc]
      · obtain ⟨part, small, held⟩ := Writer.write_cut wrote
        refine ⟨[], instruction, events, rfl, Array.toList_push .., part, small, ?_⟩
        exact held.trans (congrArg (· ++ _) ByteArray.append_empty.symm)

end Compilation

/-- The instructions that were reported. -/
def Compilation.traces (compilation : Compilation) : List String :=
  (compilation.messages.filter (·.level = .trace)).map Message.text

/-- Instructions are the only events that are reported as a trace. -/
theorem Event.traces_eq (events : List Event) :
    ((events.map message).filter (·.level = .trace)).map Message.text =
      (events.filterMap instruction?).map Instruction.text := by
  induction events with
  | nil => rfl
  | cons event events ih =>
    cases event with
    | instruction i => exact congrArg (i.text :: ·) ih
    | _ => exact ih

/-- What is told up to an instruction goes by the subroutines too. -/
theorem EventsInOrder.of_prefix {tokens : List Token} {events front : List Event}
    {instruction : Instruction} (told : EventsInOrder tokens events)
    (isPrefix : front ++ [.instruction instruction] <+: events) :
    EventsInOrder tokens (front ++ [.instruction instruction]) := by
  rcases told with rfl | ⟨tree, chapters, opens, rfl⟩
  · have none := List.prefix_nil.1 isPrefix
    simp at none
  rcases List.prefix_cons_iff.1 isPrefix with none | ⟨inner, isFront, within⟩
  · simp at none
  cases front with
  | nil => cases isFront
  | cons first front =>
    obtain ⟨rfl, rfl⟩ := List.cons.inj isFront
    obtain ⟨fewer, told⟩ := Chapter.exists_story_of_prefix within
    exact .inr ⟨tree, fewer, opens, congrArg (tree.opened :: ·) told⟩

namespace Compilation

variable {limit : Nat} {source : String} {sink : Sink} {told : List Event} (code : ClassCode)

theorem messages_ofCode_of_hasRoom (room : sink.HasRoom code.text.toUTF8.size) :
    (ofCode code sink).messages = code.events.map Event.message := by
  have clean := congrArg Prod.snd (writeOnto_of_hasRoom #[] code.events sink 0 room)
  exact messages_writeOnto clean

theorem messages_ofCode_of_full {size : Nat} (flushFails : Bool)
    (exceeds : size < code.text.toUTF8.size) :
    ∃ front instruction behind, code.events = front ++ .instruction instruction :: behind ∧
      (ofCode code ⟨some size, flushFails, .empty⟩).messages =
        (front ++ [.instruction instruction]).map Event.message ∧
      ∃ part < instruction.line.toUTF8.size,
        (ofCode code ⟨some size, flushFails, .empty⟩).sink.held =
          (String.join ((front.filterMap Event.instruction?).map Instruction.line)).toUTF8 ++
            instruction.line.toUTF8.extract 0 part := by
  obtain ⟨-, failed⟩ := @writeOnto_of_full #[] code.events ⟨some size, flushFails, .empty⟩ 0 size
    rfl (Nat.zero_le size) (exceeds.trans_eq (Nat.zero_add _).symm)
  obtain ⟨front, instruction, behind, split, reported, part, small, held⟩ := writeOnto_cut failed
  refine ⟨front, instruction, behind, split, reported, part, small, ?_⟩
  rw [ByteArray.empty_append] at held
  exact held

/-- Neither a warning nor a note on the class that was compiled is a trace. -/
theorem traces_ofSource
    (reported : (ofCode (.ofSource limit source) sink).messages = told.map Event.message) :
    (ofSource limit source sink).traces =
      (told.filterMap Event.instruction?).map Instruction.text := by
  have warnings (found : List Warning) :
      (found.map Warning.message).filter (·.level = .trace) = [] := by
    simp [List.filter_eq_nil_iff, Warning.message]
  rw [← Event.traces_eq, ← reported, traces, ofSource]
  dsimp only
  rw [List.filter_append, List.filter_append, warnings]
  cases (ofTokens limit (Finding.tokens (Finding.ofSource source)) sink).result <;>
    simp [Summary.message, ClassCode.ofSource, ofTokens]

end Compilation

/-- What a compilation reports next to what it writes of a text, where its sink is empty before and
takes this many bytes. -/
structure Compilation.Mirrors (tokens : List Token) (warnings : List Warning) (text : String)
    (capacity : Option Nat) (compilation : Compilation) : Prop where
  /-- A sink with enough room receives the lines that are reported. -/
  whole : (∀ size ∈ capacity, text.utf8ByteSize ≤ size) →
    compilation.sink.held = text.toUTF8 ∧ compilation.traces = textLines text
  /-- Without enough room the last line that is reported is the one that does not fit. -/
  cut : ∀ size ∈ capacity, size < text.utf8ByteSize → ∃ written failed behind,
    textLines text = written ++ failed :: behind ∧ compilation.traces = written ++ [failed] ∧
    compilation.sink.held = text.toUTF8.extract 0 size ∧
    compilation.result = .error (.sink .full) ∧
    ∃ part < (failed ++ "\n").utf8ByteSize,
      compilation.sink.held = (String.join (written.map (· ++ "\n"))).toUTF8 ++
        (failed ++ "\n").toUTF8.extract 0 part
  /-- Warnings come first, then the class, and then its subroutines, each right before its
  function. -/
  reports : ∃ told done,
    compilation.messages = warnings.map Warning.message ++ told.map Event.message ++ done ∧
    EventsInOrder tokens told ∧
    match compilation.result with
    | .ok summary => done = [summary.message]
    | .error _ => done = []

theorem Compilation.reports_ofSource {limit : Nat} {source : String} {sink : Sink}
    {told : List Event}
    (reported : (ofCode (.ofSource limit source) sink).messages = told.map Event.message) :
    ∃ done, (ofSource limit source sink).messages =
        (Finding.warnings (Finding.ofSource source)).map Warning.message ++
          told.map Event.message ++ done ∧
      match (ofSource limit source sink).result with
      | .ok summary => done = [summary.message]
      | .error _ => done = [] := by
  let done := match (ofSource limit source sink).result with
    | .ok summary => [summary.message]
    | .error _ => []
  refine ⟨done, congrArg (_ ++ · ++ done) reported, ?_⟩
  unfold done
  cases (ofSource limit source sink).result <;> rfl

namespace Compilation

variable (limit : Nat) (source : String)

theorem eventsInOrder_ofSource :
    EventsInOrder (Finding.tokens (Finding.ofSource source))
      (ClassCode.ofSource limit source).events :=
  ClassCode.eventsInOrder limit (Finding.scanned_ofSource source)

theorem mirrors_of_room {capacity : Option Nat} (flushFails : Bool)
    (enough : ∀ size ∈ capacity, (ClassCode.ofSource limit source).text.utf8ByteSize ≤ size) :
    Mirrors (Finding.tokens (Finding.ofSource source)) (Finding.warnings (Finding.ofSource source))
      (ClassCode.ofSource limit source).text capacity
      (ofSource limit source ⟨capacity, flushFails, .empty⟩) := by
  have room : Sink.HasRoom ⟨capacity, flushFails, .empty⟩
      (ClassCode.ofSource limit source).text.toUTF8.size :=
    fun size isSize => (Nat.zero_add _).trans_le (enough size isSize)
  have reported := messages_ofCode_of_hasRoom (ClassCode.ofSource limit source) room
  have written := ofCode_eq_of_hasRoom (ClassCode.ofSource limit source) room
  obtain ⟨done, messages, isDone⟩ := reports_ofSource reported
  refine ⟨fun _ => ⟨?_, ?_⟩, fun size isSize exceeds => ?_, _, done, messages,
    eventsInOrder_ofSource limit source, isDone⟩
  · exact (congrArg Sink.held written.1).trans ByteArray.empty_append
  · exact (traces_ofSource reported).trans (ClassCode.textLines_ofSource limit source).symm
  · exact absurd exceeds (Nat.not_lt_of_le (enough size isSize))

theorem mirrors_of_full {size : Nat} (flushFails : Bool)
    (exceeds : size < (ClassCode.ofSource limit source).text.utf8ByteSize) :
    Mirrors (Finding.tokens (Finding.ofSource source)) (Finding.warnings (Finding.ofSource source))
      (ClassCode.ofSource limit source).text (some size)
      (ofSource limit source ⟨some size, flushFails, .empty⟩) := by
  obtain ⟨front, instruction, behind, split, reported, part, small, held⟩ :=
    messages_ofCode_of_full (ClassCode.ofSource limit source) flushFails exceeds
  have isFront : front ++ [.instruction instruction] <+: (ClassCode.ofSource limit source).events :=
    ⟨behind, by rw [split, List.append_assoc]; rfl⟩
  have told := EventsInOrder.of_prefix (eventsInOrder_ofSource limit source) isFront
  obtain ⟨done, messages, isDone⟩ := reports_ofSource reported
  refine ⟨fun enough => ?_, fun other isOther _ => ?_, _, done, messages, told, isDone⟩
  · exact absurd (enough size rfl) (Nat.not_le_of_lt exceeds)
  obtain rfl := Option.some.inj isOther
  obtain ⟨cut, full⟩ := ofCode_of_full (ClassCode.ofSource limit source) flushFails exceeds
  refine ⟨(front.filterMap Event.instruction?).map Instruction.text, instruction.text,
    (behind.filterMap Event.instruction?).map Instruction.text, ?_, ?_, cut, full, part, small, ?_⟩
  · rw [ClassCode.textLines_ofSource, ClassCode.instructions, split, List.filterMap_append,
      List.map_append]
    rfl
  · rw [traces_ofSource reported, List.filterMap_append, List.map_append]
    rfl
  · rw [← Instruction.join_lines]
    exact held

end Compilation

/-- The trace of a compilation is the text that is written, line by line, and in front of each
function it is noted which subroutine begins. -/
theorem Compilation.ofSource_mirrors (limit : Nat) (source : String) :
    (ofSource limit source .unlimited).sink.held = (ClassCode.ofSource limit source).text.toUTF8 ∧
      String.join ((textLines (ClassCode.ofSource limit source).text).map (· ++ "\n")) =
        (ClassCode.ofSource limit source).text ∧
      ∀ capacity flushFails,
        Mirrors (Finding.tokens (Finding.ofSource source))
          (Finding.warnings (Finding.ofSource source)) (ClassCode.ofSource limit source).text
          capacity (ofSource limit source ⟨capacity, flushFails, .empty⟩) := by
  refine ⟨?_, ?_, fun capacity flushFails => ?_⟩
  · have enough : ∀ size ∈ none, (ClassCode.ofSource limit source).text.utf8ByteSize ≤ size :=
      fun size limited => absurd limited (Option.not_mem_none size)
    exact ((mirrors_of_room limit source false enough).whole enough).1
  · rw [ClassCode.textLines_ofSource, ← Instruction.join_lines]
    rfl
  · by_cases enough : ∀ size ∈ capacity, (ClassCode.ofSource limit source).text.utf8ByteSize ≤ size
    · exact mirrors_of_room limit source flushFails enough
    · obtain ⟨size, isSize, exceeds⟩ : ∃ size ∈ capacity,
          size < (ClassCode.ofSource limit source).text.utf8ByteSize := by
        simpa only [not_forall, exists_prop, Nat.not_le] using enough
      obtain rfl := Option.mem_def.1 isSize
      exact mirrors_of_full limit source flushFails exceeds

/-- Of the second line not everything fits. -/
example : (Compilation.ofSource 4 "class Main {static int n; function void f() {return;}} /*"
    ⟨some 20, false, .empty⟩).messages =
      [⟨.warn, "unterminated block comment starting at 1:56"⟩,
       ⟨.debug, "class Main: 0 fields, 1 statics"⟩, ⟨.debug, "Function Main.f: 0 locals"⟩,
       ⟨.trace, "function Main.f 0"⟩, ⟨.trace, "push constant 0"⟩] := by
  decide +kernel

end Jack
